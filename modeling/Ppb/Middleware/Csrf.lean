import Ppb.Middleware.Headers

/-!
# CSRF protection (`middleware/csrf.rs`)

A browser sends the session cookies with every request, also with one that another
site makes it send. A request that changes state and is authenticated by a cookie
must therefore have an allowed `Origin` and carry a token that only the panel's own
pages know.

The middleware takes any `Authorization` header as a sign that no cookie is used.
The extractor of the principal falls back to the cookie unless the header starts
with `Bearer ` and is text. `csrf_covers_iff`: the check covers a cookie's requests
exactly if they carry no `Authorization` header at all.
-/

namespace Ppb.Middleware

variable (vendor : Vendor)

/-- What the middleware reads of the configuration and the secrets. -/
structure CsrfConfig where
  /-- `config.session.csrf_header_name` -/
  csrfHeaderName : String
  /-- `config.cors.allowed_origins` -/
  allowedOrigins : List String
  /-- `config.cors.dev_origins` -/
  devOrigins : List String
  /-- `secrets.jwt_secret` -/
  jwtSecret : String

/-- `is_state_changing` (middleware/csrf.rs:29-34). -/
def isStateChanging : Method → Bool
  | .post | .put | .patch | .delete => true
  | _ => false

/-- `s.as_bytes()`. -/
def bytes (s : String) : List UInt8 := s.toByteArray.data.toList

/-- `csrf_key` (middleware/csrf.rs:37-42). -/
def csrfKey (jwtSecret : String) : List UInt8 := vendor.hmac (bytes jwtSecret) (ofAscii ":ppb-csrf")

/-- `sid.as_bytes()`. -/
def uuidBytes (u : Uuid) : List UInt8 :=
  (List.range 16).map fun i => UInt8.ofNat (u.toNat / 256 ^ (15 - i))

/-- `csrf_token_for` (middleware/csrf.rs:45-50). -/
def csrfTokenFor (sid : Uuid) (key : List UInt8) : String :=
  vendor.base64 (vendor.hmac key (uuidBytes sid))

/-- `ct_eq` (middleware/csrf.rs:53-62). -/
def ctEq (a b : String) : Bool :=
  if (bytes a).length ≠ (bytes b).length then false
  else ((bytes a).zip (bytes b)).foldl (fun diff p => diff ||| (p.1 ^^^ p.2)) 0 == 0

/-- `uses_cookie_auth` (middleware/csrf.rs:66-72). -/
def usesCookieAuth (headers : HeaderMap) : Bool :=
  if (headers.get "authorization").isSome then false
  else (getCookie vendor headers accessCookie).isSome || (getCookie vendor headers refreshCookie).isSome

/-- `origin_allowed` (middleware/csrf.rs:75-80). -/
def originAllowed (origin : Option String) (allowed : List String) : Bool :=
  match origin with
  | some o => if o ≠ "" then allowed.any fun a => a == o else true
  | none => true

/-- The origin check of a request (middleware/csrf.rs:91-104). -/
def CsrfConfig.originOk (config : CsrfConfig) (headers : HeaderMap) : Bool :=
  originAllowed (headers.getStr "origin") (config.allowedOrigins ++ config.devOrigins)

/-- The token that a request of the session `sid` must carry. -/
def CsrfConfig.expected (config : CsrfConfig) (sid : Uuid) : String :=
  csrfTokenFor vendor sid (csrfKey vendor config.jwtSecret)

/-- The token check of a request (middleware/csrf.rs:113-119). -/
def CsrfConfig.tokenOk (config : CsrfConfig) (headers : HeaderMap) (sid : Uuid) : Bool :=
  ctEq (config.expected vendor sid) ((headers.getStr config.csrfHeaderName).getD "")

/-- The token check of the access cookie (middleware/csrf.rs:107-125). An invalid
    cookie is left to the extractor. -/
def CsrfConfig.checkToken (config : CsrfConfig) (now : ℕ) (headers : HeaderMap) :
    Except ApiError Unit :=
  match getCookie vendor headers accessCookie with
  | none => .ok ()
  | some token =>
    match decodeAccess vendor now token with
    | .error _ => .ok ()
    | .ok claims =>
      if config.tokenOk vendor headers claims.sid then .ok ()
      else .error (.new .csrfInvalid "CSRF token mismatch or missing X-CSRF-Token header")

/-- `csrf_middleware` (middleware/csrf.rs:83-130), up to `next.run(req)`. -/
def csrfMiddleware (config : CsrfConfig) (now : ℕ) (req : Request) : Except ApiError Unit :=
  if isStateChanging req.method && usesCookieAuth vendor req.headers then
    if config.originOk req.headers then config.checkToken vendor now req.headers
    else .error (.new .csrfInvalid "CSRF origin rejected")
  else .ok ()

/-! ## Comparing tokens -/

theorem foldl_or_xor {as bs : List UInt8} (hlen : as.length = bs.length) (d : UInt8) :
    (as.zip bs).foldl (fun diff p => diff ||| (p.1 ^^^ p.2)) d = 0 ↔ d = 0 ∧ as = bs := by
  induction as generalizing bs d with
  | nil =>
    obtain rfl : bs = [] := List.length_eq_zero_iff.mp hlen.symm
    simp
  | cons a as ih =>
    cases bs with
    | nil => cases hlen
    | cons b bs =>
      rw [List.zip_cons_cons, List.foldl_cons, ih (Nat.succ.inj hlen), UInt8.or_eq_zero_iff,
        UInt8.xor_eq_zero_iff, List.cons.injEq]
      tauto

theorem bytes_inj {a b : String} : bytes a = bytes b ↔ a = b := by
  rw [← String.toByteArray_inj, ByteArray.ext_iff, ← Array.toList_inj]
  rfl

/-- The comparison that does not stop at the first difference is equality. -/
theorem ctEq_iff (a b : String) : ctEq a b = true ↔ a = b := by
  unfold ctEq
  split_ifs with hlen
  · refine iff_of_false (by simp) ?_
    rintro rfl
    exact hlen rfl
  · rw [beq_iff_eq, foldl_or_xor (not_not.mp hlen), bytes_inj]
    exact and_iff_right rfl

/-- The expected token is not empty, so a missing header is not accepted. -/
theorem tokenOk_iff (config : CsrfConfig) (headers : HeaderMap) (sid : Uuid) :
    config.tokenOk vendor headers sid = true ↔
      headers.getStr config.csrfHeaderName = some (config.expected vendor sid) := by
  have hne : config.expected vendor sid ≠ "" := by
    refine vendor.base64_ne_empty _ fun hnil => ?_
    have hlen := vendor.hmac_length (csrfKey vendor config.jwtSecret) (uuidBytes sid)
    rw [hnil] at hlen
    cases hlen
  rw [CsrfConfig.tokenOk, ctEq_iff]
  cases headers.getStr config.csrfHeaderName with
  | none => simp [hne]
  | some provided => simp [eq_comm]

/-! ## Which requests are checked -/

variable {vendor}

/-- A write with the cookie and no `Authorization` header. -/
theorem csrfMiddleware_checked {config : CsrfConfig} {now : ℕ} {req : Request} {token : String}
    {claims : AccessClaims} (hwrite : isStateChanging req.method = true)
    (hnone : req.headers.get "authorization" = none)
    (hcookie : getCookie vendor req.headers accessCookie = some token)
    (hdecode : vendor.decode now token = some claims) :
    csrfMiddleware vendor config now req = .ok () ↔ config.originOk req.headers = true ∧
      req.headers.getStr config.csrfHeaderName = some (config.expected vendor claims.sid) := by
  have huses : usesCookieAuth vendor req.headers = true := by simp [usesCookieAuth, hnone, hcookie]
  have hcheck : config.checkToken vendor now req.headers = .ok () ↔
      config.tokenOk vendor req.headers claims.sid = true := by
    rw [CsrfConfig.checkToken, hcookie]
    simp only [(decodeAccess_eq_ok vendor).mpr hdecode]
    split_ifs with h <;> simp [h]
  rw [csrfMiddleware, hwrite, huses, ← tokenOk_iff, ← hcheck]
  cases config.originOk req.headers <;> simp

/-- A request with an `Authorization` header, whatever it says. -/
theorem csrfMiddleware_skipped {config : CsrfConfig} {now : ℕ} {req : Request}
    (hsome : req.headers.get "authorization" ≠ none) :
    csrfMiddleware vendor config now req = .ok () := by
  have huses : usesCookieAuth vendor req.headers = false := by
    rw [usesCookieAuth, if_pos (Option.isSome_iff_ne_none.mpr hsome)]
  unfold csrfMiddleware
  rw [huses, Bool.and_false]
  rfl

/-- Some origin is not allowed. -/
theorem exists_origin (allowed : List String) :
    ∃ v o, toStr v = some o ∧ originAllowed (some o) allowed = false := by
  -- longer than every allowed one
  let n := (allowed.map String.length).sum
  refine ⟨.replicate (n + 1) 120, String.ofList (.replicate (n + 1) 'x'), ?_, ?_⟩
  · have hvisible : isVisibleAscii 120 = true := by decide
    have hchar : Char.ofNat (120 : UInt8).toNat = 'x' := by decide
    rw [toStr, if_pos (by simp [hvisible]), List.map_replicate, hchar]
  · have hnot : String.ofList (.replicate (n + 1) 'x') ∉ allowed := by
      intro hmem
      have hle := List.single_le_sum (by simp) _ (List.mem_map_of_mem (f := String.length) hmem)
      rw [String.length_ofList, List.length_replicate] at hle
      exact absurd hle (by omega)
    simp only [originAllowed]
    rw [if_pos (by simp [List.replicate_succ]), List.any_eq_false]
    intro a ha heq
    exact hnot (beq_iff_eq.mp heq ▸ ha)

/-- Two requests with the same method and credentials. -/
structure SameCredentials (req req' : Request) : Prop where
  method : req'.method = req.method
  authorization : req'.headers.get "authorization" = req.headers.get "authorization"
  cookie : req'.headers.get "cookie" = req.headers.get "cookie"

theorem SameCredentials.getCookie {req req' : Request} (h : SameCredentials req req')
    (name : String) : getCookie vendor req'.headers name = getCookie vendor req.headers name := by
  simp only [Middleware.getCookie, HeaderMap.getStr, h.cookie]

/-- **CSRF covers the writes of a cookie** if and only if they carry no `Authorization`
    header. `later` is when the extractor looks at the token of the cookie. -/
theorem csrf_covers_iff (config : CsrfConfig) (req : Request) {now later : ℕ} (hlater : now ≤ later)
    (hwrite : isStateChanging req.method = true) {token : String} {claims : AccessClaims}
    (hfrom : FromCookie vendor req.headers token)
    (hdecode : decodeAccess vendor later token = .ok claims) :
    (∀ req', SameCredentials req req' → csrfMiddleware vendor config now req' = .ok () →
        config.originOk req'.headers = true ∧
          req'.headers.getStr config.csrfHeaderName = some (config.expected vendor claims.sid)) ↔
      req.headers.get "authorization" = none := by
  have hdecode' := vendor.decode_earlier hlater ((decodeAccess_eq_ok vendor).mp hdecode)
  constructor
  · intro hcovers
    by_contra hsome
    obtain ⟨v, hv⟩ := Option.ne_none_iff_exists'.mp hsome
    obtain ⟨c, hc⟩ : ∃ c, req.headers.get "cookie" = some c := by
      refine Option.ne_none_iff_exists'.mp fun hnone => ?_
      have := hfrom.2
      simp [getCookie, HeaderMap.getStr, hnone] at this
    -- the same credentials, from another site
    obtain ⟨v', o, ho, hbad⟩ := exists_origin (config.allowedOrigins ++ config.devOrigins)
    let req' : Request := ⟨req.method, [("authorization", v), ("cookie", c), ("origin", v')]⟩
    have horigin : config.originOk req'.headers = false := by
      have hget : req'.headers.getStr "origin" = some o := ho
      rw [CsrfConfig.originOk, hget, hbad]
    have hsame : SameCredentials req req' := ⟨rfl, hv.symm, hc.symm⟩
    have hpass : csrfMiddleware vendor config now req' = .ok () := by
      refine csrfMiddleware_skipped ?_
      rw [hsame.authorization]
      exact hsome
    rw [(hcovers req' hsame hpass).1] at horigin
    cases horigin
  · intro hnone req' hsame hpass
    refine (csrfMiddleware_checked ?_ ?_ ?_ hdecode').mp hpass
    · rwa [hsame.method]
    · rwa [hsame.authorization]
    · rw [hsame.getCookie]
      exact hfrom.2

/-- The configuration of the tests, with one allowed origin. -/
def sampleConfig : CsrfConfig :=
  ⟨"X-CSRF-Token", ["https://phira.htadiy.com"], [], "test-secret-test-secret-test-secret!!"⟩

/-- A write from an allowed origin with the cookie and the token of its session. -/
def checkedWrite : Request :=
  ⟨.post, [("cookie", sampleCookie), ("origin", ofAscii "https://phira.htadiy.com"),
    ("x-csrf-token", ofAscii "-k8VVtt-hMzeg81h13rSUl7ZlU9yfx4yakA4dfWlWjo")]⟩

theorem csrf_covers_iff_checked :
    FromCookie sampleVendor checkedWrite.headers sampleToken ∧
      csrfMiddleware sampleVendor sampleConfig 1700000000 checkedWrite = .ok () ∧
      sampleConfig.originOk checkedWrite.headers = true ∧
        checkedWrite.headers.getStr "X-CSRF-Token" = some (sampleConfig.expected sampleVendor 7) := by
  have hfrom : FromCookie sampleVendor checkedWrite.headers sampleToken :=
    ⟨rfl, getCookie_sample rfl⟩
  have hdecode := (decodeAccess_eq_ok sampleVendor).mpr (decode_sample 1700000005 (by simp))
  have hpass : csrfMiddleware sampleVendor sampleConfig 1700000000 checkedWrite = .ok () := by
    refine (csrfMiddleware_checked rfl rfl hfrom.2 (decode_sample _ (by simp))).mpr ?_
    exact ⟨by decide +kernel, by decide +kernel⟩
  exact ⟨hfrom, hpass, (csrf_covers_iff sampleConfig checkedWrite (by simp) rfl hfrom hdecode).mpr
    rfl checkedWrite ⟨rfl, rfl, rfl⟩ hpass⟩

/-- The same cookie from another site, with `Authorization: Basic x` and no token. -/
def forgedWrite : Request :=
  ⟨.post, [("authorization", ofAscii "Basic x"), ("cookie", sampleCookie),
    ("origin", ofAscii "https://evil.example")]⟩

theorem not_csrf_covers_forged :
    isStateChanging forgedWrite.method = true ∧
      extractBearerOrCookie sampleVendor forgedWrite.headers accessCookie = some sampleToken ∧
      FromCookie sampleVendor forgedWrite.headers sampleToken ∧
      decodeAccess sampleVendor 1700000005 sampleToken = .ok sampleClaims ∧
      csrfMiddleware sampleVendor sampleConfig 1700000000 forgedWrite = .ok () ∧
      sampleConfig.originOk forgedWrite.headers = false ∧
      forgedWrite.headers.getStr sampleConfig.csrfHeaderName = none := by
  have hfrom : FromCookie sampleVendor forgedWrite.headers sampleToken :=
    ⟨by decide +kernel, getCookie_sample rfl⟩
  refine ⟨rfl, hfrom.extract, hfrom, ?_, csrfMiddleware_skipped nofun, ?_, by decide +kernel⟩
  · exact (decodeAccess_eq_ok sampleVendor).mpr (decode_sample _ (by simp))
  · decide +kernel

end Ppb.Middleware
