import Ppb.Common.Json
import Ppb.Common.Trace
import Ppb.Phira.CacheKey

/-!
# The cache of the Phira gateway

`get_json` of `phira/gateway.rs` (lines 56-91) with `fetch_with_retry` (lines 93-131).
A call looks its key up, asks the rate limiter, waits for the lock of the key, looks
again, and fetches; what it has fetched goes into the cache for `max(ttl, 1)` seconds.
The lock is held until the call returns or its task is dropped.

The calls interleave at every one of these steps. In the labels are what the rate
limiter and Phira answer, how much time passes, and which calls are dropped. Times
are nanoseconds of the monotonic clock.

* `Sound`: what is in the cache was fetched under its key, and the call that fetches
  for a key holds the lock of the key.
* `gateway_sound`: if the requests are plain (`Request.Plain`), a value from the cache
  was fetched for the same request; and no key is fetched twice at a time.
* `not_gateway_sound_search`: a search text with both letters gets the charts of
  another request.
-/

namespace Ppb.Phira

open Trace

/-! ## One attempt -/

/-- The errors `get_json` returns. -/
inductive PhiraError where
  | rateLimited
  | unavailable (message : String)
  | api (message : String)
  deriving DecidableEq

/-- What an attempt ends with: a response, whose text may fail to arrive, or an error of the HTTP
    client, which is transient if it is a timeout or concerns the connection. -/
inductive Reply where
  | response (status : ℕ) (text : Except String String)
  | failed (transient : Bool) (message : String)

/-- `serde_json::from_str` and the text of a status code. -/
structure Extern where
  parse : String → Option Json
  statusText : ℕ → String

def retryMaxAttempts : ℕ := 3

def retryBaseDelayMs : ℕ := 100

def retryTotalBudgetMs : ℕ := 5000

/-- `Duration::from_millis`. -/
def millis (n : ℕ) : ℕ := n * 10 ^ 6

/-- The delay before a further attempt in `sleep_backoff` (phira/client.rs:104-116). -/
def delay (attempt : ℕ) : ℕ := millis (retryBaseDelayMs <<< min attempt 3)

/-- What `fetch_with_retry` makes of a reply; `none` is a further attempt. -/
def verdict (x : Extern) (path : String) (attempt : ℕ) : Reply → Option (Except PhiraError Json)
  | .response _ (.error message) => some (.error (.unavailable message))
  | .response status (.ok text) =>
    if 200 ≤ status ∧ status < 300 then
      match x.parse text with
      | some value => some (.ok value)
      | none => some (.error (.api ("unexpected payload for " ++ path)))
    else if status = 404 then some (.error (.api (path ++ " not found")))
    else if (500 ≤ status ∧ status < 600) ∧ attempt < retryMaxAttempts then none
    else some (.error (.api (path ++ " failed: status " ++ x.statusText status)))
  | .failed transient message =>
    if attempt < retryMaxAttempts ∧ transient = true then none
    else some (.error (.unavailable message))

/-! ## The gateway and its calls -/

structure CachedValue where
  value : Json
  expires : ℕ

/-- Where a call of `get_json` is. -/
inductive Phase where
  | begun
  | missed
  | waiting
  | locked
  | sending (attempt deadline : ℕ)
  | sleeping (attempt deadline till : ℕ)
  /-- it has returned a value from the cache, found there at this time -/
  | hit (value : Json) (time : ℕ)
  | fetched (value : Json)
  | failed (error : PhiraError)
  | dropped

structure Call where
  request : Request
  phase : Phase

/-- A fetch that has succeeded. -/
structure Fetch where
  request : Request
  value : Json
  time : ℕ

/-- The cache, who holds the lock of each key, the calls, and all that was ever fetched. -/
structure Gateway where
  now : ℕ
  cache : String → Option CachedValue
  locks : String → Option ℕ
  calls : List Call
  fetched : List Fetch

inductive Step where
  /-- a call of `get_json` -/
  | get (request : Request)
  /-- call `i` looks its key up -/
  | look (i : ℕ)
  /-- the rate limiter answers -/
  | limit (i : ℕ) (allowed : Bool)
  /-- it takes the lock of its key -/
  | lock (i : ℕ)
  /-- it looks again -/
  | lookAgain (i : ℕ)
  /-- its attempt ends -/
  | answer (i : ℕ) (reply : Reply)
  /-- its delay is over -/
  | wake (i : ℕ)
  /-- its task is dropped -/
  | drop (i : ℕ)
  /-- `clear_cache` -/
  | clear
  | tick (nanos : ℕ)

/-- The call has the lock of its key. -/
def Phase.holds : Phase → Bool
  | .locked | .sending .. | .sleeping .. => true
  | _ => false

/-- Its fetch is in flight. -/
def Phase.fetches : Phase → Bool
  | .sending .. | .sleeping .. => true
  | _ => false

/-- The call is over. -/
def Phase.over : Phase → Bool
  | .hit .. | .fetched _ | .failed _ | .dropped => true
  | _ => false

/-- `Duration::from_secs(self.ttl_secs.max(1) as u64)`. -/
def lifetime (ttlSecs : Int64) : ℕ := (max ttlSecs.toInt 1).toNat * 10 ^ 9

namespace Gateway

def start : Gateway := ⟨0, fun _ => none, fun _ => none, [], []⟩

/-- The value in the cache, if it has not expired. -/
def lookup (s : Gateway) (key : String) : Option Json :=
  ((s.cache key).filter fun cv => s.now < cv.expires).map (·.value)

def setPhase (s : Gateway) (i : ℕ) (phase : Phase) : Gateway :=
  { s with calls := s.calls.modify i fun c => { c with phase := phase } }

/-- The call gives its lock back. -/
def release (s : Gateway) (key : String) : Gateway :=
  { s with locks := Function.update s.locks key none }

def insert (s : Gateway) (ttlSecs : Int64) (request : Request) (value : Json) : Gateway :=
  { s with
    cache := Function.update s.cache request.key (some ⟨value, s.now + lifetime ttlSecs⟩)
    fetched := s.fetched ++ [⟨request, value, s.now⟩] }

/-- The attempt of call `i` ends. -/
def onReply (s : Gateway) (x : Extern) (ttlSecs : Int64) (i : ℕ) (request : Request)
    (attempt deadline : ℕ) (reply : Reply) : Gateway :=
  match verdict x request.path attempt reply with
  | some (.ok value) =>
    ((s.insert ttlSecs request value).setPhase i (.fetched value)).release request.key
  | some (.error error) => (s.setPhase i (.failed error)).release request.key
  | none =>
    let till := s.now + delay (attempt + 1)
    if deadline < till then
      (s.setPhase i (.failed (.unavailable "Phira API retry budget exceeded"))).release request.key
    else s.setPhase i (.sleeping (attempt + 1) deadline till)

end Gateway

/-- One step. -/
def step (x : Extern) (ttlSecs : Int64) (s : Gateway) : Step → Option Gateway
  | .get request => some { s with calls := s.calls ++ [⟨request, .begun⟩] }
  | .clear => some { s with cache := fun _ => none }
  | .tick nanos => some { s with now := s.now + nanos }
  | .look i => (s.calls[i]?).bind fun c =>
      match c.phase, s.lookup c.request.key with
      | .begun, some value => some (s.setPhase i (.hit value s.now))
      | .begun, none => some (s.setPhase i .missed)
      | _, _ => none
  | .limit i allowed => (s.calls[i]?).bind fun c =>
      match c.phase with
      | .missed => some (s.setPhase i (if allowed then .waiting else .failed .rateLimited))
      | _ => none
  | .lock i => (s.calls[i]?).bind fun c =>
      match c.phase, s.locks c.request.key with
      | .waiting, none => some { s.setPhase i .locked with
          locks := Function.update s.locks c.request.key (some i) }
      | _, _ => none
  | .lookAgain i => (s.calls[i]?).bind fun c =>
      match c.phase, s.lookup c.request.key with
      | .locked, some value => some ((s.setPhase i (.hit value s.now)).release c.request.key)
      | .locked, none => some (s.setPhase i (.sending 0 (s.now + millis retryTotalBudgetMs)))
      | _, _ => none
  | .answer i reply => (s.calls[i]?).bind fun c =>
      match c.phase with
      | .sending attempt deadline =>
        some (s.onReply x ttlSecs i c.request attempt deadline reply)
      | _ => none
  | .wake i => (s.calls[i]?).bind fun c =>
      match c.phase with
      | .sleeping attempt deadline till =>
        if till ≤ s.now then some (s.setPhase i (.sending attempt deadline)) else none
      | _ => none
  | .drop i => (s.calls[i]?).bind fun c =>
      if c.phase.over then none
      else if c.phase.holds then some ((s.setPhase i .dropped).release c.request.key)
      else some (s.setPhase i .dropped)

/-! ## What the claim says -/

/-- A value from the cache was fetched for the same request, at most `max(ttl, 1)` seconds before. -/
def FromSameRequest (ttlSecs : Int64) (s : Gateway) : Prop :=
  ∀ (i : ℕ) (c : Call) value time, s.calls[i]? = some c → c.phase = .hit value time →
    ∃ f ∈ s.fetched, f.request.Same c.request ∧ f.value = value ∧ f.time ≤ time ∧
      time ≤ f.time + lifetime ttlSecs

/-- At most one fetch for a key is in flight. -/
def OneFetch (s : Gateway) : Prop :=
  ∀ (i j : ℕ) (c d : Call), s.calls[i]? = some c → s.calls[j]? = some d → c.phase.fetches = true →
    d.phase.fetches = true → c.request.key = d.request.key → i = j

/-- What is asked for meets `P`. -/
def Gets (P : Request → Prop) (_ : Gateway) : Step → Prop
  | .get request => P request
  | _ => True

/-! ## The invariant -/

/-- The value was fetched under this key and had not expired at this time. -/
def Fresh (ttlSecs : Int64) (s : Gateway) (key : String) (value : Json) (time : ℕ) : Prop :=
  ∃ f ∈ s.fetched, f.request.key = key ∧ f.value = value ∧ f.time ≤ time ∧
    time < f.time + lifetime ttlSecs

/-- The requests meet `P`. What is in the cache was fetched under its key, and so were the values
    the calls have found there. A call that holds a lock holds that of its key. -/
structure Sound (P : Request → Prop) (ttlSecs : Int64) (s : Gateway) : Prop where
  asked : ∀ (i : ℕ) (c : Call), s.calls[i]? = some c → P c.request
  known : ∀ f ∈ s.fetched, P f.request
  cache : ∀ key cv, s.cache key = some cv → ∃ f ∈ s.fetched, f.request.key = key ∧
    f.value = cv.value ∧ f.time ≤ s.now ∧ cv.expires = f.time + lifetime ttlSecs
  hits : ∀ (i : ℕ) (c : Call) value time, s.calls[i]? = some c → c.phase = .hit value time →
    Fresh ttlSecs s c.request.key value time
  holder : ∀ (i : ℕ) (c : Call), s.calls[i]? = some c → c.phase.holds = true →
    s.locks c.request.key = some i

variable {P : Request → Prop} {x : Extern} {ttlSecs : Int64} {s s' : Gateway} {i j : ℕ} {c d : Call}
  {phase : Phase}

theorem Sound.start : Sound P ttlSecs .start := by
  refine ⟨?_, ?_, nofun, ?_, ?_⟩ <;> simp [Gateway.start]

theorem Sound.lookup (h : Sound P ttlSecs s) {key : String} {value : Json}
    (hlookup : s.lookup key = some value) : Fresh ttlSecs s key value s.now := by
  obtain ⟨cv, hcv, rfl⟩ := Option.map_eq_some_iff.mp hlookup
  obtain ⟨hcache, hexpires⟩ := Option.filter_eq_some_iff.mp hcv
  obtain ⟨f, hf, hkey, hvalue, htime, hends⟩ := h.cache key cv hcache
  have hlt : s.now < cv.expires := of_decide_eq_true hexpires
  exact ⟨f, hf, hkey, hvalue, htime, by omega⟩

/-- Two holders of the lock of a key are one call. -/
theorem Sound.holder_unique (h : Sound P ttlSecs s) (hi : s.calls[i]? = some c)
    (hj : s.calls[j]? = some d) (hc : c.phase.holds = true) (hd : d.phase.holds = true)
    (hkey : c.request.key = d.request.key) : i = j := by
  have hlock := h.holder i c hi hc
  rw [hkey, h.holder j d hj hd] at hlock
  exact (Option.some.inj hlock).symm

theorem getElem?_setPhase (hi : s.calls[i]? = some c) (j : ℕ) : (s.setPhase i phase).calls[j]? =
    if i = j then some { c with phase := phase } else s.calls[j]? := by
  show (s.calls.modify i _)[j]? = _
  rw [List.getElem?_modify]
  by_cases hij : i = j
  · subst hij
    simp [hi]
  · simp [hij]

/-- A call goes on. What the new phase needs is there, and the others keep their locks. -/
theorem Sound.move (h : Sound P ttlSecs s) (hi : s.calls[i]? = some c)
    (hcalls : s'.calls = (s.setPhase i phase).calls) (hcache : s'.cache = s.cache)
    (hfetched : s'.fetched = s.fetched) (hnow : s'.now = s.now)
    (hhit : ∀ value time, phase = .hit value time → Fresh ttlSecs s c.request.key value time)
    (hself : phase.holds = true → s'.locks c.request.key = some i)
    (hothers : ∀ (j : ℕ) (d : Call), i ≠ j → s.calls[j]? = some d → d.phase.holds = true →
      s'.locks d.request.key = s.locks d.request.key) : Sound P ttlSecs s' := by
  refine ⟨fun j d hj => ?_, hfetched ▸ h.known, ?_, fun j d value time hj hphase => ?_,
    fun j d hj hholds => ?_⟩
  · rw [hcalls, getElem?_setPhase hi] at hj
    split_ifs at hj with hij
    · obtain rfl := Option.some.inj hj
      exact h.asked i c hi
    · exact h.asked j d hj
  · rw [hcache, hfetched, hnow]
    exact h.cache
  · rw [hcalls, getElem?_setPhase hi] at hj
    unfold Fresh
    rw [hfetched]
    split_ifs at hj with hij
    · obtain rfl := Option.some.inj hj
      exact hhit value time hphase
    · exact h.hits j d value time hj hphase
  · rw [hcalls, getElem?_setPhase hi] at hj
    split_ifs at hj with hij
    · obtain rfl := Option.some.inj hj
      exact hij ▸ hself hholds
    · rw [hothers j d hij hj hholds]
      exact h.holder j d hj hholds

/-- The call goes on and keeps what locks it has. -/
theorem Sound.setPhase (h : Sound P ttlSecs s) (hi : s.calls[i]? = some c)
    (hhit : ∀ value time, phase = .hit value time → Fresh ttlSecs s c.request.key value time)
    (hholds : phase.holds = true → c.phase.holds = true) : Sound P ttlSecs (s.setPhase i phase) :=
  h.move hi rfl rfl rfl rfl hhit (fun hp => h.holder i c hi (hholds hp)) fun _ _ _ _ _ => rfl

/-- The call ends and gives its lock back. -/
theorem Sound.release (h : Sound P ttlSecs s) (hi : s.calls[i]? = some c)
    (hc : c.phase.holds = true) (hphase : phase.holds = false)
    (hhit : ∀ value time, phase = .hit value time → Fresh ttlSecs s c.request.key value time) :
    Sound P ttlSecs ((s.setPhase i phase).release c.request.key) := by
  refine h.move hi rfl rfl rfl rfl hhit (fun hp => ?_) fun j d hij hj hd => ?_
  · rw [hphase] at hp
    cases hp
  · have hkey : d.request.key ≠ c.request.key :=
      fun hkey => hij (h.holder_unique hi hj hc hd hkey.symm)
    exact Function.update_of_ne hkey _ _

theorem Fresh.insert {key : String} {value : Json} {time : ℕ} (h : Fresh ttlSecs s key value time)
    (request : Request) (v : Json) : Fresh ttlSecs (s.insert ttlSecs request v) key value time := by
  obtain ⟨f, hf, hrest⟩ := h
  exact ⟨f, List.mem_append_left _ hf, hrest⟩

/-- What is fetched goes into the cache with its time. -/
theorem Sound.insert (h : Sound P ttlSecs s) {request : Request} (hrequest : P request)
    (value : Json) : Sound P ttlSecs (s.insert ttlSecs request value) := by
  refine ⟨h.asked, ?_, fun key cv hcv => ?_, fun j d v time hj hphase => (h.hits j d v time hj hphase).insert _ _,
    h.holder⟩
  · show ∀ f ∈ s.fetched ++ [⟨request, value, s.now⟩], P f.request
    simpa [or_imp, forall_and] using ⟨h.known, hrequest⟩
  have hupdate : Function.update s.cache request.key
      (some ⟨value, s.now + lifetime ttlSecs⟩) key = some cv := hcv
  by_cases hkey : key = request.key
  · subst hkey
    rw [Function.update_self] at hupdate
    obtain rfl := Option.some.inj hupdate
    exact ⟨⟨request, value, s.now⟩, List.mem_append_right _ List.mem_cons_self, rfl, rfl, le_rfl, rfl⟩
  · rw [Function.update_of_ne hkey] at hupdate
    obtain ⟨f, hf, hrest⟩ := h.cache key cv hupdate
    exact ⟨f, List.mem_append_left _ hf, hrest⟩

theorem Sound.onReply (h : Sound P ttlSecs s) (hi : s.calls[i]? = some c)
    (hc : c.phase.holds = true) (attempt deadline : ℕ) (reply : Reply) :
    Sound P ttlSecs (s.onReply x ttlSecs i c.request attempt deadline reply) := by
  unfold Gateway.onReply
  split
  · exact (h.insert (h.asked i c hi) _).release hi hc rfl nofun
  · exact h.release hi hc rfl nofun
  · dsimp only
    split_ifs
    · exact h.release hi hc rfl nofun
    · exact h.setPhase hi nofun fun _ => hc

theorem Sound.get (h : Sound P ttlSecs s) {request : Request} (hrequest : P request) :
    Sound P ttlSecs { s with calls := s.calls ++ [⟨request, .begun⟩] } := by
  -- the new call has neither a value nor a lock
  have hold : ∀ (j : ℕ) (d : Call), (s.calls ++ [⟨request, .begun⟩])[j]? = some d →
      s.calls[j]? = some d ∨ d = ⟨request, .begun⟩ := by
    intro j d hj
    rcases lt_or_ge j s.calls.length with hlt | hge
    · rw [List.getElem?_append_left hlt] at hj
      exact .inl hj
    · rw [List.getElem?_append_right hge, List.getElem?_singleton] at hj
      split_ifs at hj with hzero
      exact .inr (Option.some.inj hj).symm
  refine ⟨fun j d hj => ?_, h.known, h.cache, fun j d value time hj hphase => ?_,
    fun j d hj hholds => ?_⟩
  · rcases hold j d hj with hj | rfl
    · exact h.asked j d hj
    · exact hrequest
  · rcases hold j d hj with hj | rfl
    · exact h.hits j d value time hj hphase
    · cases hphase
  · rcases hold j d hj with hj | rfl
    · exact h.holder j d hj hholds
    · cases hholds

theorem Sound.lock (h : Sound P ttlSecs s) (hi : s.calls[i]? = some c)
    (hfree : s.locks c.request.key = none) : Sound P ttlSecs { s.setPhase i .locked with
      locks := Function.update s.locks c.request.key (some i) } := by
  refine h.move (c := c) hi (show _ = (s.setPhase i .locked).calls from rfl) rfl rfl rfl nofun
    (fun _ => Function.update_self _ _ _) fun j d hij hj hd => ?_
  have hkey : d.request.key ≠ c.request.key := by
    intro hkey
    rw [← hkey, h.holder j d hj hd] at hfree
    cases hfree
  exact Function.update_of_ne hkey _ _

/-! ## Runs -/

/-- What a step keeps. -/
theorem sound_step {l : Step} (h : Sound P ttlSecs s) (hok : Gets P s l) (hstep : step x ttlSecs s l = some s') :
    Sound P ttlSecs s' := by
  cases l with
  | get request =>
    obtain rfl := Option.some.inj hstep
    exact h.get hok
  | clear =>
    obtain rfl := Option.some.inj hstep
    exact ⟨h.asked, h.known, nofun, h.hits, h.holder⟩
  | tick nanos =>
    obtain rfl := Option.some.inj hstep
    refine ⟨h.asked, h.known, fun key cv hcv => ?_, h.hits, h.holder⟩
    obtain ⟨f, hf, hkey, hvalue, htime, hends⟩ := h.cache key cv hcv
    exact ⟨f, hf, hkey, hvalue, htime.trans (Nat.le_add_right _ _), hends⟩
  | look i =>
    obtain ⟨c, hi, hstep⟩ := Option.bind_eq_some_iff.mp hstep
    split at hstep
    · rename_i value hphase hlookup
      obtain rfl := Option.some.inj hstep
      refine h.setPhase hi ?_ nofun
      rintro _ _ ⟨⟩
      exact h.lookup hlookup
    · obtain rfl := Option.some.inj hstep
      exact h.setPhase hi nofun nofun
    · cases hstep
  | limit i allowed =>
    obtain ⟨c, hi, hstep⟩ := Option.bind_eq_some_iff.mp hstep
    split at hstep
    · obtain rfl := Option.some.inj hstep
      cases allowed
      · exact h.setPhase hi nofun nofun
      · exact h.setPhase hi nofun nofun
    · cases hstep
  | lock i =>
    obtain ⟨c, hi, hstep⟩ := Option.bind_eq_some_iff.mp hstep
    split at hstep
    · rename_i hphase hfree
      obtain rfl := Option.some.inj hstep
      exact h.lock hi hfree
    · cases hstep
  | lookAgain i =>
    obtain ⟨c, hi, hstep⟩ := Option.bind_eq_some_iff.mp hstep
    split at hstep
    · rename_i value hphase hlookup
      obtain rfl := Option.some.inj hstep
      refine h.release hi (by rw [hphase]; rfl) rfl ?_
      rintro _ _ ⟨⟩
      exact h.lookup hlookup
    · rename_i hphase hlookup
      obtain rfl := Option.some.inj hstep
      exact h.setPhase hi nofun fun _ => by rw [hphase]; rfl
    · cases hstep
  | answer i reply =>
    obtain ⟨c, hi, hstep⟩ := Option.bind_eq_some_iff.mp hstep
    split at hstep
    · rename_i attempt deadline hphase
      obtain rfl := Option.some.inj hstep
      exact h.onReply hi (by rw [hphase]; rfl) attempt deadline reply
    · cases hstep
  | wake i =>
    obtain ⟨c, hi, hstep⟩ := Option.bind_eq_some_iff.mp hstep
    split at hstep
    · rename_i attempt deadline till hphase
      split_ifs at hstep
      obtain rfl := Option.some.inj hstep
      exact h.setPhase hi nofun fun _ => by rw [hphase]; rfl
    · cases hstep
  | drop i =>
    obtain ⟨c, hi, hstep⟩ := Option.bind_eq_some_iff.mp hstep
    split_ifs at hstep with hover hholds
    · obtain rfl := Option.some.inj hstep
      exact h.release hi hholds rfl nofun
    · obtain rfl := Option.some.inj hstep
      exact h.setPhase hi nofun nofun

theorem sound_run (hrun : Reaches (step x ttlSecs) (Gets P) .start s) : Sound P ttlSecs s :=
  hrun.invariant Sound.start fun _ _ _ h hok hstep => sound_step h hok hstep

theorem holds_of_fetches {phase : Phase} (h : phase.fetches = true) : phase.holds = true := by
  cases phase with
  | sending attempt deadline => rfl
  | sleeping attempt deadline till => rfl
  | _ => cases h

theorem Sound.oneFetch (h : Sound P ttlSecs s) : OneFetch s := fun _ _ _ _ hi hj hc hd hkey =>
  h.holder_unique hi hj (holds_of_fetches hc) (holds_of_fetches hd) hkey

/-- In every run whose requests are plain: a value from the cache was fetched for the same request,
    no longer than its lifetime before; no key is fetched twice at a time; and the keys tell the
    requests apart. -/
theorem gateway_sound (x : Extern) (ttlSecs : Int64) (s : Gateway)
    (hrun : Reaches (step x ttlSecs) (Gets Request.Plain) .start s) :
    FromSameRequest ttlSecs s ∧ OneFetch s ∧
      ∀ r r' : Request, r.Plain → r'.Plain → (r.key = r'.key ↔ r.Same r') := by
  have h := sound_run hrun
  refine ⟨fun i c value time hi hphase => ?_, h.oneFetch, fun r r' => cacheKey_eq_iff⟩
  obtain ⟨f, hf, hkey, hvalue, htime, hends⟩ := h.hits i c value time hi hphase
  have hsame := (cacheKey_eq_iff (h.known f hf) (h.asked i c hi)).mp hkey
  exact ⟨f, hf, hsame, hvalue, htime, hends.le⟩

/-- A parser of one text. -/
def sampleExtern : Extern := ⟨fun text => if text = "[]" then some (.arr []) else none, toString⟩

/-- A user who searches for `x&type=3`, and a user who searches the charts of type 3 for `x`. -/
def sampleRequests : Request × Request :=
  (chartListRequest 1 20 (some "x&type=3") none none none none none,
    chartListRequest 1 20 (some "x") (some 3) none none none none)

/-- A call fetches, and a later call finds its value. -/
def sampleRun (first second : Request) : List Step :=
  [.get first, .look 0, .limit 0 true, .lock 0, .lookAgain 0,
    .answer 0 (.response 200 (.ok "[]")), .tick 5, .get second, .look 1]

/-- The same list of charts twice: the second call finds what the first has fetched. -/
theorem gateway_sound_twice : ∃ s, Reaches (step sampleExtern 60) (Gets Request.Plain) .start s ∧
    (s.calls.map fun c => match c.phase with
      | .hit value time => some (value, time)
      | _ => none) = [none, some (.arr [], 5)] ∧ FromSameRequest 60 s := by
  have hplain : sampleRequests.2.Plain := by
    refine chartListRequest_plain 1 20 (some 3) nofun nofun ?_ nofun nofun
    rintro _ ⟨⟩
    exact plainValue_of_notMem (by decide)
  have htest : ∀ (s : Gateway) (l : Step), (match l with
      | .get request => decide (request = sampleRequests.2)
      | _ => true) = true → Gets Request.Plain s l := by
    intro s l h
    cases l with
    | get request =>
      obtain rfl := of_decide_eq_true h
      exact hplain
    | _ => trivial
  have hrun : (runWhile (step sampleExtern 60) (fun _ l => match l with
      | .get request => decide (request = sampleRequests.2)
      | _ => true) .start (sampleRun sampleRequests.2 sampleRequests.2)).any (fun s =>
        decide ((s.calls.map fun c => match c.phase with
          | .hit value time => some (value, time)
          | _ => none) = [none, some (.arr [], 5)])) = true := by decide +kernel
  obtain ⟨s, hs, hcalls⟩ := exists_reaches_of_runWhile htest hrun
  exact ⟨s, hs, of_decide_eq_true hcalls, (gateway_sound sampleExtern 60 s hs).1⟩

/-- The second user gets what was fetched for the first. -/
theorem not_gateway_sound_search : ∃ s, Reachable (step sampleExtern 60) .start s ∧
    ¬ FromSameRequest 60 s := by
  have hrun : (runFrom (step sampleExtern 60) .start
      (sampleRun sampleRequests.1 sampleRequests.2)).any (fun s =>
        (s.calls[1]?).any fun c => match c.phase with
          | .hit _ _ => s.fetched.all fun f =>
              decide (f.request.query.length ≠ c.request.query.length)
          | _ => false) = true := by decide +kernel
  obtain ⟨s, hs, htest⟩ := exists_reachable_of_runFrom hrun
  refine ⟨s, hs, fun hsound => ?_⟩
  obtain ⟨c, hc, htest⟩ := (Option.any_eq_true _ _).mp htest
  split at htest
  · rename_i value time hphase
    obtain ⟨f, hf, hsame, -⟩ := hsound 1 c value time hc hphase
    exact of_decide_eq_true (List.all_eq_true.mp htest f hf) hsame.2.length_eq
  · cases htest

end Ppb.Phira
