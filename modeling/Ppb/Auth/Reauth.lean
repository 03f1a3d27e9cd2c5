import Ppb.Server.World

/-!
# Reauthentication (`auth/reauth.rs`, `check_reauth_header` of `auth/routes.rs`)

Some actions need a second, short-lived token in the header `x-reauth-token`,
bound to the caller's session and issued for a risk level.

`Reauthed auth headers risk h`: such a token was presented and checked.
`wp_checkReauthHeader`: this is what the check establishes.
-/

namespace Ppb.Auth

open Prog

/-- `ReauthRisk` (auth/reauth.rs:18-21). -/
inductive ReauthRisk where
  | high | critical
  deriving DecidableEq, Repr

/-- The `SessionExpired` errors of a reauth check. -/
def reauthError (message : String) : ApiError := .new .sessionExpired message

/-- `decode_reauth` (auth/reauth.rs:77-98). -/
def decodeReauth (token : String) (expectedSid : Uuid) : Server ReauthClaims := do
  let decoded ← ask (.decodeReauthToken token)
  let claims ← ofOption (reauthError "invalid reauth context") decoded
  failIf (claims.purpose ≠ "reauth") (reauthError "not a reauth context")
  failIf (claims.sid ≠ expectedSid) (reauthError "reauth context bound to another session")
  let now ← ask .now
  failIf (claims.exp ≤ now) (reauthError "reauth context expired")
  return claims

/-- The risk test of `check_reauth_header` (auth/routes.rs:238-241). -/
def ReauthRisk.adequate : ReauthRisk → String → Bool
  | .critical, risk => risk == "critical"
  | .high, risk => risk == "high" || risk == "critical"

/-- `check_reauth_header` (auth/routes.rs:227-246). -/
def checkReauthHeader (auth : AuthPrincipal) (headers : Headers) (risk : ReauthRisk) :
    Server Unit := do
  let token ← ofOption (reauthError "reauth context required") (headers.get "x-reauth-token")
  let claims ← decodeReauth token auth.sid
  failIf (risk.adequate claims.risk = false) (reauthError "reauth risk insufficient")

/-! ## What the check establishes -/

/-- The caller presented a token that the server's secret verifies, bound to his
    session, not expired at the check and issued for a sufficient risk. -/
def Reauthed (auth : AuthPrincipal) (headers : Headers) (risk : ReauthRisk) (h : Asked) : Prop :=
  ∃ token claims now, headers.get "x-reauth-token" = some token ∧
    Latest h (.decodeReauthToken token) (some claims) ∧ claims.purpose = "reauth" ∧
    claims.sid = auth.sid ∧ Latest h .now now ∧ now < claims.exp ∧
    risk.adequate claims.risk = true

theorem Reauthed.extends {auth : AuthPrincipal} {headers : Headers} {risk : ReauthRisk}
    {h h' : Asked} {C : Query → Prop} (hr : Reauthed auth headers risk h) (hx : Extends C h h')
    (hdecode : ∀ token, ¬ C (.decodeReauthToken token)) (hnow : ¬ C .now) :
    Reauthed auth headers risk h' := by
  obtain ⟨token, claims, now, htoken, hd, hpurpose, hsid, hn, hexp, hrisk⟩ := hr
  exact ⟨token, claims, now, htoken, hd.extends hx (hdecode token), hpurpose, hsid,
    hn.extends hx hnow, hexp, hrisk⟩

/-- The questions of a reauth check. -/
def IsReauthQuery : Query → Prop
  | .decodeReauthToken _ => True
  | .now => True
  | _ => False

variable {ok : Asked → Event Query Query.Answer → Prop} {h : Asked} {auth : AuthPrincipal}
  {headers : Headers} {risk : ReauthRisk}

/-- The part of `Reauthed` that `decode_reauth` checks. -/
def Decoded (token : String) (sid : Uuid) (claims : ReauthClaims) (h : Asked) : Prop :=
  ∃ now, Latest h (.decodeReauthToken token) (some claims) ∧ claims.purpose = "reauth" ∧
    claims.sid = sid ∧ Latest h .now now ∧ now < claims.exp

theorem wp_decodeReauth {token : String} {sid : Uuid}
    (hok : ∀ h' e, Extends IsReauthQuery h h' → IsReauthQuery e.1 → ok h' e) :
    wp ok (decodeReauth token sid) h fun h' r =>
      Extends IsReauthQuery h h' ∧ ∀ claims, r = .ok claims → Decoded token sid claims h' := by
  refine wp_ask (fun a => hok _ _ .refl trivial) fun a => ?_
  have hx : Extends IsReauthQuery h (h ++ [⟨.decodeReauthToken token, a⟩]) :=
    Extends.refl.snoc trivial
  cases a with
  | none => exact ⟨hx, nofun⟩
  | some claims =>
    have hl : Latest (h ++ [⟨.decodeReauthToken token, some claims⟩]) (.decodeReauthToken token)
      (some claims) := .now _ _ _
    refine wp_failIf_bind (fun _ => ⟨hx, nofun⟩) fun hpurpose => ?_
    refine wp_failIf_bind (fun _ => ⟨hx, nofun⟩) fun hsid => ?_
    refine wp_ask (fun a => hok _ _ hx trivial) fun now => ?_
    have hx' := hx.snoc (e := ⟨.now, now⟩) (C := IsReauthQuery) trivial
    refine wp_failIf_bind (fun _ => ⟨hx', nofun⟩) fun hexp => ⟨hx', fun c hc => ?_⟩
    rw [← Except.ok.inj hc]
    exact ⟨now, hl.append (by simp), not_not.mp hpurpose, not_not.mp hsid, .now _ _ _,
      Int64.not_le.mp hexp⟩

theorem wp_checkReauthHeader
    (hok : ∀ h' e, Extends IsReauthQuery h h' → IsReauthQuery e.1 → ok h' e) :
    wp ok (checkReauthHeader auth headers risk) h fun h' r =>
      Extends IsReauthQuery h h' ∧ (r = .ok () → Reauthed auth headers risk h') := by
  refine wp_ofOption_bind (fun _ => ⟨.refl, nofun⟩) fun token htoken => ?_
  refine wp_bind (wp_decodeReauth hok) ?_ ?_
  · rintro h₁ claims ⟨hx, hd⟩
    refine wp_failIf (fun _ => ⟨hx, nofun⟩) fun hrisk => ⟨hx, fun _ => ?_⟩
    obtain ⟨now, hl, hpurpose, hsid, hnow, hexp⟩ := hd claims rfl
    exact ⟨token, claims, now, htoken, hl, hpurpose, hsid, hnow, hexp, by simpa using hrisk⟩
  · rintro h₁ e ⟨hx, -⟩
    exact ⟨hx, nofun⟩

end Ppb.Auth
