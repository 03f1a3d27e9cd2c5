import Ppb.Common.Json
import Ppb.Common.Prog
import Ppb.Phira.Gateway

/-!
# The client of the Phira API

`PhiraClient` of `phira/client.rs`: `login_post` (lines 152-186) behind `login_email` and
`login_refresh`, `me` (lines 239-283), `redirect_location` (lines 125-137) and
`sleep_backoff` (lines 104-115). Both calls are the same loop: a redirect is followed by
hand, so that a `POST` stays one, and a server error or a failure of the connection is
retried after a delay.

* `Sent`: what a call may send, and how long it may sleep, after what it has seen.
* `Concluded`: how a call ends after what it has seen.
* `client_calls`: whatever the network and the clock do, a call sends the same method,
  headers and body each time, to its first address or to where the last redirect
  points; it sends at most nine requests, sleeps at most three times and never past its
  budget, and gives up only when its retries, its redirects or its time are spent.
-/

namespace Ppb.Phira.Client

open Prog

/-! ## What is sent and what comes back -/

inductive PhiraError where
  | api (message : String)
  | unavailable (message : String)
  | invalidCredentials
  | reauthRequired (message : String)
  | other (message : String)
  | rateLimited
  deriving DecidableEq

inductive Method where
  | get
  | post
  deriving DecidableEq

structure HttpRequest where
  method : Method
  url : String
  bearer : Option String
  json : Option Json
  deriving DecidableEq

/-- A response: its status, its `Location` where there is one that is text, and its body, which
    may fail to arrive. -/
structure Response where
  status : ℕ
  location : Option String
  text : Except String String

/-- What an attempt ends with; an error of the HTTP client is transient if it is a timeout or
    concerns the connection (`is_transient_http_error`). -/
inductive Reply where
  | response (resp : Response)
  | failed (transient : Bool) (message : String)

/-- Times are nanoseconds of the monotonic clock. -/
inductive Query where
  | send (request : HttpRequest)
  | now
  | sleep (nanos : ℕ)
  deriving DecidableEq

@[reducible]
def Query.Answer : Query → Type
  | .send _ => Reply
  | .now => ℕ
  | .sleep _ => Unit

abbrev Call (α : Type) := Prog Query Query.Answer PhiraError α

abbrev ask (q : Query) : Call q.Answer := query q

structure PhiraLoginResponse where
  id : Int64
  token : String
  refreshToken : String
  expireAt : String

structure PhiraMe where
  id : Int64
  username : String
  avatar : String

/-- `serde_json::from_str` at the types it is used at, and the text of a status code. -/
structure Extern where
  value : String → Option Json
  loginResponse : String → Option PhiraLoginResponse
  me : String → Option PhiraMe
  statusText : ℕ → String

/-! ## The calls -/

def trimEndSlashes (s : String) : String :=
  String.ofList (s.toList.reverse.dropWhile (· == '/')).reverse

structure PhiraClient where
  baseUrl : String

def PhiraClient.new (baseUrl : String) : PhiraClient := ⟨trimEndSlashes baseUrl⟩

def maxRedirects : ℕ := 5

/-- `StatusCode::is_redirection`. -/
def isRedirection (status : ℕ) : Bool := 300 ≤ status && status < 400

/-- `StatusCode::is_server_error`. -/
def isServerError (status : ℕ) : Bool := 500 ≤ status && status < 600

/-- `StatusCode::is_success`. -/
def isSuccess (status : ℕ) : Bool := 200 ≤ status && status < 300

def isAbsolute (location : String) : Bool :=
  "http://".toList.isPrefixOf location.toList || "https://".toList.isPrefixOf location.toList

def redirectLocation (baseUrl : String) (resp : Response) : Except PhiraError String :=
  match resp.location with
  | none => .error (.api "redirect without Location")
  | some location =>
    .ok (if isAbsolute location then location else trimEndSlashes baseUrl ++ location)

def budgetExceeded : PhiraError := .unavailable "Phira API retry budget exceeded"

def sleepBackoff (attempt deadline : ℕ) : Call Unit := do
  let now ← ask .now
  failIf (deadline < now + delay attempt) budgetExceeded
  ask (.sleep (delay attempt))

/-- What the two loops differ in: the request for an address, the message about too many redirects,
    and what is made of the last response. -/
structure Exchange (α : Type) where
  request : String → HttpRequest
  tooMany : String
  finish : Response → Except PhiraError α

variable {α : Type}

/-- The `loop` of `login_post` and of `me`. -/
def Exchange.loop (x : Exchange α) (baseUrl : String) (deadline : ℕ) (url : String)
    (attempt redirects : ℕ) : Call α :=
  .ask (.send (x.request url)) fun
    | .response resp =>
      if isRedirection resp.status then
        if redirects < maxRedirects then
          ofExcept (redirectLocation baseUrl resp) >>= fun url =>
            x.loop baseUrl deadline url attempt (redirects + 1)
        else fail (.api x.tooMany)
      else if isServerError resp.status ∧ attempt < retryMaxAttempts then
        sleepBackoff (attempt + 1) deadline >>= fun _ =>
          x.loop baseUrl deadline url (attempt + 1) redirects
      else ofExcept (x.finish resp)
    | .failed transient message =>
      if transient ∧ attempt < retryMaxAttempts then
        sleepBackoff (attempt + 1) deadline >>= fun _ =>
          x.loop baseUrl deadline url (attempt + 1) redirects
      else fail (.unavailable message)
termination_by (retryMaxAttempts - attempt) + (maxRedirects - redirects)

def Exchange.run (x : Exchange α) (client : PhiraClient) (path : String) : Call α := do
  let now ← ask .now
  x.loop client.baseUrl (now + millis retryTotalBudgetMs) (client.baseUrl ++ path) 0 0

def parseLoginResponse (ext : Extern) (resp : Response) : Except PhiraError PhiraLoginResponse :=
  match resp.text with
  | .error message => .error (.unavailable message)
  | .ok text =>
    match ((ext.value text).bind (·.get? "error")).bind Json.asStr with
    | some err => .error (if resp.status = 401 then .invalidCredentials else .reauthRequired err)
    | none =>
      match ext.loginResponse text with
      | some login => .ok login
      | none =>
        .error (.api ("unexpected login payload (status " ++ ext.statusText resp.status ++ ")"))

def loginExchange (ext : Extern) (body : Json) : Exchange PhiraLoginResponse where
  request url := ⟨.post, url, none, some body⟩
  tooMany := "login: too many redirects"
  finish := parseLoginResponse ext

def PhiraClient.loginPost (client : PhiraClient) (ext : Extern) (body : Json) :
    Call PhiraLoginResponse :=
  (loginExchange ext body).run client "/login"

def PhiraClient.loginEmail (client : PhiraClient) (ext : Extern) (email password : String) :
    Call PhiraLoginResponse :=
  client.loginPost ext (.obj [("email", .str email), ("password", .str password)])

def PhiraClient.loginRefresh (client : PhiraClient) (ext : Extern) (refreshToken : String) :
    Call PhiraLoginResponse :=
  client.loginPost ext (.obj [("refreshToken", .str refreshToken)])

def parseMe (ext : Extern) (resp : Response) : Except PhiraError PhiraMe :=
  match resp.text with
  | .error message => .error (.unavailable message)
  | .ok text =>
    if isSuccess resp.status then
      match ext.me text with
      | some me => .ok me
      | none => .error (.api "unexpected /me payload")
    else .error (.api ("/me failed: status " ++ ext.statusText resp.status))

def meExchange (ext : Extern) (accessToken : String) : Exchange PhiraMe where
  request url := ⟨.get, url, some accessToken, none⟩
  tooMany := "/me: too many redirects"
  finish := parseMe ext

def PhiraClient.me (client : PhiraClient) (ext : Extern) (accessToken : String) : Call PhiraMe :=
  (meExchange ext accessToken).run client "/me"

/-! ## What a call has seen -/

abbrev Seen := History Query Query.Answer

/-- Where a call goes on that was at `url`. -/
def redirected (baseUrl url : String) : Event Query Query.Answer → String
  | ⟨.send _, .response resp⟩ =>
    if isRedirection resp.status then
      match redirectLocation baseUrl resp with
      | .ok location => location
      | .error _ => url
    else url
  | _ => url

/-- The address a call that began with `url` is at. -/
def target (baseUrl url : String) (h : Seen) : String := h.foldl (redirected baseUrl) url

def isSend : Event Query Query.Answer → Bool
  | ⟨.send _, _⟩ => true
  | _ => false

def isSleep : Event Query Query.Answer → Bool
  | ⟨.sleep _, _⟩ => true
  | _ => false

def isRedirect : Event Query Query.Answer → Bool
  | ⟨.send _, .response resp⟩ => isRedirection resp.status
  | _ => false

section Events

variable {baseUrl url : String} {request : HttpRequest} {reply : Reply} {now nanos : ℕ} {u : Unit}

@[simp] theorem isSend_send : isSend ⟨.send request, reply⟩ = true := rfl

@[simp] theorem isSend_now : isSend ⟨.now, now⟩ = false := rfl

@[simp] theorem isSend_sleep : isSend ⟨.sleep nanos, u⟩ = false := rfl

@[simp] theorem isSleep_send : isSleep ⟨.send request, reply⟩ = false := rfl

@[simp] theorem isSleep_now : isSleep ⟨.now, now⟩ = false := rfl

@[simp] theorem isSleep_sleep : isSleep ⟨.sleep nanos, u⟩ = true := rfl

@[simp] theorem isRedirect_now : isRedirect ⟨.now, now⟩ = false := rfl

@[simp] theorem isRedirect_sleep : isRedirect ⟨.sleep nanos, u⟩ = false := rfl

@[simp] theorem redirected_now : redirected baseUrl url ⟨.now, now⟩ = url := rfl

@[simp] theorem redirected_sleep : redirected baseUrl url ⟨.sleep nanos, u⟩ = url := rfl

theorem redirected_of_stay (h : isRedirect ⟨.send request, reply⟩ = false) :
    redirected baseUrl url ⟨.send request, reply⟩ = url := by
  cases reply with
  | response resp =>
    have hstay : isRedirection resp.status = false := h
    simp [redirected, hstay]
  | failed transient message => rfl

theorem redirected_of_moved {resp : Response} {location : String}
    (hmoved : isRedirection resp.status = true)
    (hloc : redirectLocation baseUrl resp = .ok location) :
    redirected baseUrl url ⟨.send request, .response resp⟩ = location := by
  simp [redirected, hmoved, hloc]

theorem isRedirect_of_moved {resp : Response} (hmoved : isRedirection resp.status = true) :
    isRedirect ⟨.send request, .response resp⟩ = true := hmoved

end Events

/-- The same request each time, to the address the call is at; the delay that is next, within the
    time the call has. -/
def Sent (x : Exchange α) (client : PhiraClient) (path : String) (h : Seen) :
    Event Query Query.Answer → Prop
  | ⟨.send request, _⟩ =>
    request = x.request (target client.baseUrl (client.baseUrl ++ path) h) ∧
      h.countP isSend < 1 + retryMaxAttempts + maxRedirects
  | ⟨.now, _⟩ => True
  | ⟨.sleep nanos, _⟩ =>
    h.countP isSleep < retryMaxAttempts ∧ nanos = delay (h.countP isSleep + 1) ∧
      ∃ start now, h.head? = some ⟨.now, start⟩ ∧ h.getLast? = some ⟨.now, now⟩ ∧
        now + nanos ≤ start + millis retryTotalBudgetMs

/-- The result is what the last reply says, or that the time is over. Before it gives up on a server
    error or on a transient failure a call has had all its retries, and before it gives up on a
    redirect all its redirects. -/
def Concluded (x : Exchange α) (h : Seen) (r : Except PhiraError α) : Prop :=
  match h.getLast? with
  | some ⟨.send _, .response resp⟩ =>
    if isRedirection resp.status then
      resp.location = none ∧ r = .error (.api "redirect without Location") ∨
        h.countP isRedirect = maxRedirects + 1 ∧ r = .error (.api x.tooMany)
    else r = x.finish resp ∧
      (isServerError resp.status → h.countP isSleep = retryMaxAttempts)
  | some ⟨.send _, .failed transient message⟩ =>
    r = .error (.unavailable message) ∧ (transient → h.countP isSleep = retryMaxAttempts)
  | some ⟨.now, now⟩ =>
    r = .error budgetExceeded ∧ ∃ start, h.head? = some ⟨.now, start⟩ ∧
      start + millis retryTotalBudgetMs < now + delay (h.countP isSleep + 1)
  | _ => False

/-! ## The loop -/

/-- A call that began at `start` is about to send. -/
structure Ready (baseUrl url₀ : String) (start : ℕ) (h : Seen) (url : String)
    (attempt redirects : ℕ) : Prop where
  began : h.head? = some ⟨.now, start⟩
  here : target baseUrl url₀ h = url
  sends : h.countP isSend = attempt + redirects
  sleeps : h.countP isSleep = attempt
  followed : h.countP isRedirect = redirects
  tries : attempt ≤ retryMaxAttempts
  hops : redirects ≤ maxRedirects

variable {baseUrl url₀ url path : String} {start attempt redirects : ℕ} {h : Seen}
  {x : Exchange α} {client : PhiraClient} {request : HttpRequest}

/-- A redirect has come. -/
theorem Ready.hop (hr : Ready baseUrl url₀ start h url attempt redirects) {resp : Response}
    {location : String} (hmoved : isRedirection resp.status = true)
    (hloc : redirectLocation baseUrl resp = .ok location) (hlt : redirects < maxRedirects) :
    Ready baseUrl url₀ start (h ++ [⟨.send request, .response resp⟩]) location attempt
      (redirects + 1) where
  began := by simp [List.head?_append, hr.began]
  here := by
    rw [target, List.foldl_append, List.foldl_cons, redirected_of_moved hmoved hloc]
    rfl
  sends := by
    rw [List.countP_append, hr.sends]
    show _ + 1 = _
    omega
  sleeps := by simp [List.countP_append, hr.sleeps]
  followed := by simp [List.countP_append, hr.followed, isRedirect_of_moved hmoved]
  tries := hr.tries
  hops := hlt

/-- A reply has come that is no redirect, and the delay is over. -/
theorem Ready.retry (hr : Ready baseUrl url₀ start h url attempt redirects) {reply : Reply}
    (hstay : isRedirect ⟨.send request, reply⟩ = false) (hlt : attempt < retryMaxAttempts)
    (now nanos : ℕ) :
    Ready baseUrl url₀ start
      (h ++ [⟨.send request, reply⟩] ++ [⟨.now, now⟩] ++ [⟨.sleep nanos, ()⟩]) url (attempt + 1)
      redirects where
  began := by simp [List.head?_append, hr.began]
  here := by
    have hhere : h.foldl (redirected baseUrl) url₀ = url := hr.here
    simp only [target, List.foldl_append, hhere, List.foldl_cons, List.foldl_nil,
      redirected_of_stay hstay, redirected_now, redirected_sleep]
  sends := by
    simp only [List.countP_append, hr.sends, List.countP_singleton, isSend_send, isSend_now,
      isSend_sleep, if_true]
    simp
    omega
  sleeps := by simp [List.countP_append, hr.sleeps]
  followed := by simp [List.countP_append, hr.followed, hstay]
  tries := hlt
  hops := hr.hops

/-- The delay before a further attempt. -/
theorem sleepBackoff_spec (hr : Ready baseUrl url₀ start h url attempt redirects) {reply : Reply}
    (hlt : attempt < retryMaxAttempts) :
    wp (Sent x client path)
      (sleepBackoff (attempt + 1) (start + millis retryTotalBudgetMs))
      (h ++ [⟨.send request, reply⟩])
      fun h' r => match r with
        | .ok _ => ∃ now nanos,
          h' = h ++ [⟨.send request, reply⟩] ++ [⟨.now, now⟩] ++ [⟨.sleep nanos, ()⟩]
        | .error e => Concluded x h' (.error e) := by
  have hsleeps : ∀ now : ℕ, List.countP isSleep
      (h ++ [⟨.send request, reply⟩] ++ [⟨.now, now⟩]) = attempt := by
    intro now
    simp [List.countP_append, hr.sleeps]
  have hhead : ∀ now : ℕ, List.head? (h ++ [⟨.send request, reply⟩] ++ [⟨.now, now⟩]) =
      some (⟨.now, start⟩ : Event Query Query.Answer) := by
    intro now
    simp [List.head?_append, hr.began]
  refine wp_ask (fun now => trivial) fun now => ?_
  apply wp_failIf_bind
  · intro hover
    show Concluded x _ _
    rw [Concluded, List.getLast?_concat]
    exact ⟨rfl, start, hhead now, by rw [hsleeps]; exact hover⟩
  · intro hin
    refine wp_query.mpr fun _ => ⟨?_, now, _, rfl⟩
    show _ ∧ _ ∧ _
    rw [hsleeps]
    exact ⟨hlt, rfl, start, now, hhead now, List.getLast?_concat, not_lt.mp hin⟩

/-- One attempt after the other: the induction is on the attempts and redirects that are left. -/
theorem loop_spec (left : ℕ) : ∀ {url : String} {attempt redirects : ℕ} {h : Seen},
    Ready client.baseUrl (client.baseUrl ++ path) start h url attempt redirects →
    (retryMaxAttempts - attempt) + (maxRedirects - redirects) = left →
    wp (Sent x client path)
      (x.loop client.baseUrl (start + millis retryTotalBudgetMs) url attempt redirects) h
      (Concluded x) := by
  induction left using Nat.strong_induction_on with
  | _ left ih =>
    intro url attempt redirects h hr hleft
    have htries := hr.tries
    have hhops := hr.hops
    have hretry : ∀ (reply : Reply), isRedirect ⟨.send (x.request url), reply⟩ = false →
        attempt < retryMaxAttempts → wp (Sent x client path)
          (sleepBackoff (attempt + 1) (start + millis retryTotalBudgetMs) >>= fun _ =>
            x.loop client.baseUrl (start + millis retryTotalBudgetMs) url (attempt + 1) redirects)
          (h ++ [⟨.send (x.request url), reply⟩]) (Concluded x) := by
      intro reply hstay hlt
      refine wp_bind (sleepBackoff_spec hr hlt) ?_ fun h' e he => he
      rintro h' ⟨⟩ ⟨now, nanos, rfl⟩
      exact ih _ (by omega) (hr.retry hstay hlt now nanos) rfl
    rw [Exchange.loop]
    intro reply
    refine ⟨⟨by rw [hr.here], by rw [hr.sends]; omega⟩, ?_⟩
    cases reply with
    | response resp =>
      show wp _ (if isRedirection resp.status = true then _ else _) _ _
      split_ifs with hmoved hlt herr
      · have hl : resp.location = none ∧ redirectLocation client.baseUrl resp =
            .error (.api "redirect without Location") ∨
            ∃ location, redirectLocation client.baseUrl resp = .ok location := by
          unfold redirectLocation
          cases resp.location <;> simp
        rcases hl with ⟨hnone, hl⟩ | ⟨location, hl⟩
        · rw [hl]
          show Concluded x _ _
          rw [Concluded, List.getLast?_concat]
          simp [hmoved, hnone]
        · rw [hl]
          exact ih _ (by omega) (hr.hop hmoved hl hlt) rfl
      · show Concluded x _ _
        rw [Concluded, List.getLast?_concat]
        have hcount : List.countP isRedirect (h ++ [⟨.send (x.request url), .response resp⟩]) =
            maxRedirects + 1 := by
          simp only [List.countP_append, hr.followed, List.countP_singleton,
            isRedirect_of_moved hmoved, if_true]
          omega
        simp [hmoved, hcount]
      · exact hretry _ (by simp [isRedirect, hmoved]) herr.2
      · show Concluded x _ _
        rw [Concluded, List.getLast?_concat]
        have hcount : isServerError resp.status = true →
            List.countP isSleep (h ++ [⟨.send (x.request url), .response resp⟩]) =
              retryMaxAttempts := by
          intro hserver
          have hspent : ¬ attempt < retryMaxAttempts := fun hlt => herr ⟨hserver, hlt⟩
          simp only [List.countP_append, hr.sleeps, List.countP_singleton, isSleep_send]
          simp
          omega
        simpa [hmoved] using hcount
    | failed transient message =>
      show wp _ (if transient = true ∧ attempt < retryMaxAttempts then _ else _) _ _
      split_ifs with hagain
      · exact hretry _ rfl hagain.2
      · show Concluded x _ _
        rw [Concluded, List.getLast?_concat]
        refine ⟨rfl, fun htransient => ?_⟩
        have hspent : ¬ attempt < retryMaxAttempts := fun hlt => hagain ⟨htransient, hlt⟩
        simp only [List.countP_append, hr.sleeps, List.countP_singleton, isSleep_send]
        simp
        omega

theorem run_spec : wp (Sent x client path) (x.run client path) [] (Concluded x) := by
  refine wp_ask (fun now => trivial) fun start => ?_
  have hready : Ready client.baseUrl (client.baseUrl ++ path) start [⟨.now, start⟩]
      (client.baseUrl ++ path) 0 0 :=
    ⟨rfl, rfl, rfl, rfl, rfl, Nat.zero_le _, Nat.zero_le _⟩
  exact loop_spec _ hready rfl

/-- Whatever the network and the clock do, each request of `login_post` and of `me` is the same one
    at the address the redirects lead to, at most nine are sent, and the delays stay within the
    budget; and a call ends with what its last reply says once its retries, its redirects or its
    time are spent. -/
theorem client_calls (client : PhiraClient) (ext : Extern) (body : Json) (accessToken : String) :
    wp (Sent (loginExchange ext body) client "/login") (client.loginPost ext body) []
        (Concluded (loginExchange ext body)) ∧
      wp (Sent (meExchange ext accessToken) client "/me") (client.me ext accessToken) []
        (Concluded (meExchange ext accessToken)) :=
  ⟨run_spec, run_spec⟩

end Ppb.Phira.Client
