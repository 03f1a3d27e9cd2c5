import Ppb.OpenUds.Client

/-!
# The connection to PMP (`pmp/openuds/client.rs`, `pmp/capabilities.rs`)

`run` connects, authenticates, reads until the connection ends, resets what the others see of it,
and waits before it connects again: the longer, the more attempts have failed in a row. Others
look at `state` and `capabilities`, write commands, and may call `shutdown`. The task takes one
lock after the other, so they see the steps between.

The calls and the writer are those of `Client`, whose step this system makes or none
(`client_step`). An attempt is recorded with what was sent on its connection.

* `Fits`: what holds at each place of the task.
* `connection_life`: in every run, what the others see is that of the session PMP has granted;
  commands go to no other; attempts keep their distance; a shutdown ends the task.

Deviations: `start` is called once; the messages without a response are left out, as in `Client`.
-/

namespace Ppb.OpenUds.Reconnect

open Trace

/-! ## Capabilities -/

/-- `PMP_1_0_38_CAPABILITIES` (pmp/capabilities.rs:13-20). -/
def pmp1038Capabilities : List String :=
  ["persist.touches", "persist.judges", "persist.rounds", "room.chat_send", "stream.touches",
    "stream.judges"]

/-- `capabilities_for_version` (pmp/capabilities.rs:23-32). -/
def capabilitiesForVersion (version : String) : List String :=
  if "1.0.38".toList.isPrefixOf version.toList || version == "1.0.38" then pmp1038Capabilities
  else []

/-- `active_capabilities` (pmp/capabilities.rs:39-52). -/
def activeCapabilities (configured : List String) (serverVersion : Option String) :
    Finset String :=
  match serverVersion with
  | some v =>
    let known := (capabilitiesForVersion v).toFinset
    if known = ∅ then configured.toFinset else configured.toFinset ∩ known
  | none => configured.toFinset

/-! ## Waiting -/

/-- `saturating_mul` of `u64`. -/
def saturatingMul (a b : ℕ) : ℕ := min (a * b) (2 ^ 64 - 1)

/-- `saturating_pow` of `u64`. -/
def saturatingPow (a n : ℕ) : ℕ := min (a ^ n) (2 ^ 64 - 1)

/-- `next_backoff` (pmp/openuds/client.rs:412-421), in milliseconds; `jitter` is drawn. -/
def nextBackoff (jitter attempt baseMs maxMs : ℕ) : ℕ :=
  if attempt = 0 then min baseMs maxMs
  else
    let exponent := min (attempt - 1) 10
    let delay := saturatingMul baseMs (saturatingPow 2 exponent)
    let delay := saturatingMul delay jitter / 100
    min delay maxMs

/-! ## The client -/

/-- `OpenUdsAuth` (pmp/openuds/client.rs:21-27). -/
inductive OpenUdsAuth where
  | token (token : String)
  | direct
  deriving DecidableEq

/-- `OpenUdsConfig` (pmp/openuds/client.rs:31-38), without the path of the socket. -/
structure OpenUdsConfig where
  auth : OpenUdsAuth
  reconnectBaseMs : UInt64
  reconnectMaxMs : UInt64
  requestTimeoutMs : UInt64
  capabilities : List String

/-- `AuthenticatedFrame` (pmp/openuds/types.rs:54-61). -/
structure AuthenticatedFrame where
  sessionId : String
  serverVersion : String
  deriving DecidableEq

/-- `ConnectionState` (pmp/openuds/client.rs:61-65). -/
structure ConnectionState where
  connected : Bool
  sessionId : Option String
  serverVersion : Option String
  deriving DecidableEq

/-- `serde_json::from_value`. -/
structure Extern where
  responseFrame : Json → Option ResponseFrame
  authenticatedFrame : Json → Except String AuthenticatedFrame

def Extern.calls (x : Extern) (cfg : OpenUdsConfig) : OpenUds.Extern :=
  ⟨x.responseFrame, cfg.requestTimeoutMs.toNat⟩

/-- The first frame on a connection (pmp/openuds/client.rs:160-163). -/
def authFrame : OpenUdsAuth → Json
  | .token t => .obj [("token", .str t), ("type", .str "authenticate")]
  | .direct => .obj [("type", .str "authenticate")]

/-- What the first frame from PMP means (pmp/openuds/client.rs:168-191). -/
def onFirst (x : Extern) (first : Except String Json) : Except OpenUdsError AuthenticatedFrame := do
  let first ← first.mapError OpenUdsError.protocol
  match (first.get? "type").bind Json.asStr with
  | some "authenticated" => (x.authenticatedFrame first).mapError OpenUdsError.protocol
  | some "auth_error" =>
    throw (.authRequired (((first.get? "message").bind Json.asStr).getD "authentication failed"))
  | _ => throw (.protocol "unexpected first frame")

/-- Something written to a connection; a command is known by its place in `calls`. -/
inductive Sent where
  | authenticate (frame : Json)
  | command (i : ℕ)
  deriving DecidableEq

/-- A turn of the loop: what PMP has granted, and when `connect_once` returned. -/
structure Turn where
  began : ℕ
  auth : Option AuthenticatedFrame
  ended : Option ℕ
  deriving DecidableEq

/-- A turn, with what was sent on its connection. -/
structure Attempt extends Turn where
  wire : List Sent
  deriving DecidableEq

/-- Where the task stands. -/
inductive Place where
  /-- at the condition of the loop -/
  | looping
  | entering
  /-- in `connect_once` -/
  | dialing
  | greeted
  | granted (auth : AuthenticatedFrame)
  /-- in `set_authenticated`, the capabilities are written -/
  | capped (auth : AuthenticatedFrame)
  | stated
  | reading
  /-- in `set_disconnected` -/
  | resetting
  /-- the same, the state is written -/
  | unlinking
  /-- `set_disconnected` of the loop has returned -/
  | disconnected
  | sleeping (since wake : ℕ)
  | stopped
  deriving DecidableEq

/-- `OpenUdsClient` (pmp/openuds/client.rs:68-80) with the local variable `attempt` of `run`.
    `permit` is that of the `Notify`. The rest is no part of the source: the clock, the attempts,
    the last one first, how many of them there were at the first `shutdown`, and whether one has
    returned. -/
structure OpenUdsClient where
  client : Client
  state : ConnectionState
  caps : Finset String
  attempts : UInt64
  shutdown : Bool
  permit : Bool
  place : Place
  attempt : ℕ
  now : ℕ
  history : List Attempt
  shutAt : Option ℕ
  told : Bool

/-- `OpenUdsClient::new` and `start` (pmp/openuds/client.rs:92-119). -/
def start : OpenUdsClient where
  client := .start
  state := ⟨false, none, none⟩
  caps := ∅
  attempts := 0
  shutdown := false
  permit := false
  place := .looping
  attempt := 0
  now := 0
  history := []
  shutAt := none
  told := false

/-- A step of a call, of the task, of the clock, or of a caller of `shutdown`. -/
inductive Step where
  | call (l : OpenUds.Step)
  | wait (ms : ℕ)
  | shut
  | notify
  | enter
  | begin
  | refused (text : String)
  | greet
  | first (first : Except String Json)
  | writeCaps
  | writeState
  | install
  | frame (value : Json)
  | endOfStream
  | resetState
  | dropWriter
  | clearPending
  | leave (jitter : ℕ)
  | wake
  | notified

namespace OpenUdsClient

def turns (s : OpenUdsClient) : List Turn := s.history.map (·.toTurn)

/-- A step of the connection in `Client`, and on to `place`. -/
def link (x : OpenUds.Extern) (s : OpenUdsClient) (l : OpenUds.Step) (place : Place) :
    Option OpenUdsClient :=
  (connectionStep x s.client l).map fun c => { s with client := c, place := place }

/-- `connect_once` returns an error (pmp/openuds/client.rs:136-139). -/
def fail (x : OpenUds.Extern) (s : OpenUdsClient) : Option OpenUdsClient :=
  ({ s with
    attempt := s.attempt + 1
    history := s.history.modifyHead fun a => { a with ended := some s.now } }).link x
      .connectFailed .resetting

/-- A step of a call; the one that takes the writer begins to write. -/
def onCall (x : OpenUds.Extern) (s : OpenUdsClient) (l : OpenUds.Step) : Option OpenUdsClient :=
  (callStep x s.client l).map fun c => { s with
    client := c
    history :=
      match l with
      | .lock i =>
        if c.holder = some i then
          s.history.modifyHead fun a => { a with wire := a.wire ++ [.command i] }
        else s.history
      | _ => s.history }

/-- One step of `run` with `connect_once`, `set_authenticated`, `reader_loop` and
    `set_disconnected` (pmp/openuds/client.rs:127-224). -/
def onTask (x : Extern) (cfg : OpenUdsConfig) (s : OpenUdsClient) (l : Step) :
    Option OpenUdsClient :=
  match l, s.place with
  | .enter, .looping =>
    if s.shutdown = true then s.link (x.calls cfg) .stop .stopped
    else some { s with place := .entering }
  | .begin, .entering => some { s with
      attempts := s.attempts + 1
      history := ⟨⟨s.now, none, none⟩, []⟩ :: s.history
      place := .dialing }
  | .refused _, .dialing => s.fail (x.calls cfg)
  | .greet, .dialing => some { s with
      history := s.history.modifyHead fun a => { a with wire := [.authenticate (authFrame cfg.auth)] }
      place := .greeted }
  | .first first, .greeted =>
    match onFirst x first with
    | .ok auth => some { s with
        history := s.history.modifyHead fun a => { a with auth := some auth }
        place := .granted auth }
    | .error _ => s.fail (x.calls cfg)
  | .writeCaps, .granted auth => some { s with
      caps := activeCapabilities cfg.capabilities (some auth.serverVersion)
      place := .capped auth }
  | .writeState, .capped auth => some { s with
      state := ⟨true, some auth.sessionId, some auth.serverVersion⟩
      place := .stated }
  | .install, .stated => s.link (x.calls cfg) .install .reading
  | .frame value, .reading => s.link (x.calls cfg) (.frame value) .reading
  | .endOfStream, .reading => s.link (x.calls cfg) .endOfStream .resetting
  | .resetState, .resetting => some { s with
      state := { s.state with connected := false, sessionId := none }
      place := .unlinking }
  | .dropWriter, .unlinking => s.link (x.calls cfg) .dropWriter .unlinking
  | .clearPending, .unlinking =>
    match s.client.connection with
    | .clearing 0 => s.link (x.calls cfg) .clearPending .disconnected
    -- `reader_loop` returns, and `connect_once` with it
    | .clearing (_ + 1) => ({ s with
        attempt := 0
        history := s.history.modifyHead fun a => { a with ended := some s.now } }).link (x.calls cfg)
          .clearPending .resetting
    | _ => none
  | .leave jitter, .disconnected =>
    if s.shutdown = true then s.link (x.calls cfg) .stop .stopped
    else if 80 ≤ jitter ∧ jitter ≤ 120 then
      some { s with
        place := .sleeping s.now (s.now + nextBackoff jitter s.attempt cfg.reconnectBaseMs.toNat
          cfg.reconnectMaxMs.toNat) }
    else none
  | .wake, .sleeping _ wake => if wake ≤ s.now then some { s with place := .looping } else none
  | .notified, .sleeping _ _ =>
    if s.permit = true then ({ s with permit := false }).link (x.calls cfg) .stop .stopped
    else none
  | _, _ => none

end OpenUdsClient

/-- One step. -/
def step (x : Extern) (cfg : OpenUdsConfig) (s : OpenUdsClient) (l : Step) :
    Option OpenUdsClient :=
  match l with
  | .call l => s.onCall (x.calls cfg) l
  | .wait ms => some { s with now := s.now + ms }
  | .shut => some { s with
      shutdown := true
      shutAt := s.shutAt.or (some s.history.length) }
  | .notify => if s.shutdown = true then some { s with permit := true, told := true } else none
  | l => s.onTask x cfg l

/-- There are fewer than `2^64` commands. -/
def Few (s : OpenUdsClient) : Step → Prop
  | .call l => OpenUds.Few s.client l
  | _ => True

/-! ## The steps of `Client` -/

variable {x : Extern} {y : OpenUds.Extern} {cfg : OpenUdsConfig} {s s' : OpenUdsClient}

theorem link_spec {l : OpenUds.Step} {place : Place} (h : s.link y l place = some s') :
    ∃ c, connectionStep y s.client l = some c ∧ s' = { s with client := c, place := place } := by
  obtain ⟨c, hc, heq⟩ := Option.map_eq_some_iff.mp h
  exact ⟨c, hc, heq.symm⟩

theorem callStep_of_connectionStep {c c' : Client} {l : OpenUds.Step}
    (h : connectionStep y c l = some c') : callStep y c l = none := by
  cases l with
  | begin command timeoutMs | insert i | lock i | receive i | timeout i => simp [connectionStep] at h
  | written i error => cases error <;> simp [connectionStep] at h
  | _ => rfl

/-- The connection and the writer are not touched by a call. -/
theorem callStep_keeps {c c' : Client} {l : OpenUds.Step} (h : callStep y c l = some c') :
    c'.connection = c.connection ∧ c'.writer = c.writer := by
  unfold callStep at h
  split at h
  · obtain rfl := Option.some.inj h
    exact ⟨rfl, rfl⟩
  · obtain ⟨-, -, rfl⟩ := Option.map_eq_some_iff.mp h
    exact ⟨rfl, rfl⟩
  · obtain ⟨d, -, hc⟩ := Option.bind_eq_some_iff.mp h
    split_ifs at hc
    · obtain rfl := Option.some.inj hc
      exact ⟨rfl, rfl⟩
    · obtain rfl := Option.some.inj hc
      exact ⟨rfl, rfl⟩
  · obtain ⟨-, -, rfl⟩ := Option.map_eq_some_iff.mp h
    exact ⟨rfl, rfl⟩
  · obtain ⟨-, -, rfl⟩ := Option.map_eq_some_iff.mp h
    exact ⟨rfl, rfl⟩
  · obtain ⟨d, -, hc⟩ := Option.bind_eq_some_iff.mp h
    split at hc
    · obtain rfl := Option.some.inj hc
      exact ⟨rfl, rfl⟩
    · split_ifs at hc
      obtain rfl := Option.some.inj hc
      exact ⟨rfl, rfl⟩
  · obtain ⟨d, -, hc⟩ := Option.bind_eq_some_iff.mp h
    obtain ⟨-, -, rfl⟩ := Option.map_eq_some_iff.mp hc
    exact ⟨rfl, rfl⟩
  · cases h

/-- A call takes the writer only where there is one. -/
theorem writer_of_lock {c c' : Client} {i : ℕ} (h : callStep y c (.lock i) = some c')
    (hholder : c'.holder = some i) : c.writer = true := by
  obtain ⟨d, -, hc⟩ := Option.bind_eq_some_iff.mp h
  split_ifs at hc with hheld hwriter
  · exact hwriter
  · obtain rfl := Option.some.inj hc
    have hnone : c.holder = some i := hholder
    rw [hnone] at hheld
    exact absurd rfl hheld

theorem onFrame_keeps (c : Client) (value : Json) :
    (c.onFrame y value).connection = c.connection ∧ (c.onFrame y value).writer = c.writer := by
  unfold Client.onFrame Client.onResponse
  split_ifs
  · split
    · split <;> exact ⟨rfl, rfl⟩
    · exact ⟨rfl, rfl⟩
  · exact ⟨rfl, rfl⟩

/-- What a step of the task does to the client is a step of the connection, or nothing. -/
theorem onTask_client {l : Step} (h : s.onTask x cfg l = some s') :
    s'.client = s.client ∨ ∃ l', connectionStep (x.calls cfg) s.client l' = some s'.client := by
  have hlink : ∀ {t : OpenUdsClient} {l' : OpenUds.Step} {place : Place},
      t.link (x.calls cfg) l' place = some s' → t.client = s.client →
      ∃ l', connectionStep (x.calls cfg) s.client l' = some s'.client := by
    intro t l' place h ht
    obtain ⟨c, hc, rfl⟩ := link_spec h
    exact ⟨l', ht ▸ hc⟩
  have hfail : s.fail (x.calls cfg) = some s' →
      ∃ l', connectionStep (x.calls cfg) s.client l' = some s'.client := by
    intro h
    rw [OpenUdsClient.fail] at h
    exact hlink h rfl
  unfold OpenUdsClient.onTask at h
  split at h
  · split_ifs at h
    · exact .inr (hlink h rfl)
    · exact .inl (Option.some.inj h ▸ rfl)
  · exact .inl (Option.some.inj h ▸ rfl)
  · exact .inr (hfail h)
  · exact .inl (Option.some.inj h ▸ rfl)
  · split at h
    · exact .inl (Option.some.inj h ▸ rfl)
    · exact .inr (hfail h)
  · exact .inl (Option.some.inj h ▸ rfl)
  · exact .inl (Option.some.inj h ▸ rfl)
  · exact .inr (hlink h rfl)
  · exact .inr (hlink h rfl)
  · exact .inr (hlink h rfl)
  · exact .inl (Option.some.inj h ▸ rfl)
  · exact .inr (hlink h rfl)
  · split at h
    · exact .inr (hlink h rfl)
    · exact .inr (hlink h rfl)
    · cases h
  · split_ifs at h
    · exact .inr (hlink h rfl)
    · exact .inl (Option.some.inj h ▸ rfl)
  · split_ifs at h
    exact .inl (Option.some.inj h ▸ rfl)
  · split_ifs at h
    exact .inr (hlink h rfl)
  · cases h

/-- The calls and the writer make a step of `Client`, or none. -/
theorem client_step {l : Step} (hfew : Few s l) (h : step x cfg s l = some s') :
    s'.client = s.client ∨ ∃ l', OpenUds.Few s.client l' ∧
      OpenUds.step (x.calls cfg) s.client l' = some s'.client := by
  have htask : s.onTask x cfg l = some s' → s'.client = s.client ∨ ∃ l', OpenUds.Few s.client l' ∧
      OpenUds.step (x.calls cfg) s.client l' = some s'.client := by
    intro h
    rcases onTask_client h with heq | ⟨l', hl'⟩
    · exact .inl heq
    · refine .inr ⟨l', ?_, ?_⟩
      · cases l' with
        | begin command timeoutMs => simp [connectionStep] at hl'
        | _ => trivial
      · rw [OpenUds.step, callStep_of_connectionStep hl', Option.none_or, hl']
  cases l with
  | call l =>
    obtain ⟨c, hc, rfl⟩ := Option.map_eq_some_iff.mp h
    refine .inr ⟨l, hfew, ?_⟩
    rw [OpenUds.step, hc, Option.some_or]
  | wait ms => exact .inl (Option.some.inj h ▸ rfl)
  | shut => exact .inl (Option.some.inj h ▸ rfl)
  | notify =>
    rw [step] at h
    split_ifs at h
    exact .inl (Option.some.inj h ▸ rfl)
  | _ => exact htask h

/-! ## Attempts -/

/-- The failed turns in a row, up to the last one. -/
def failures (turns : List Turn) : ℕ := (turns.takeWhile fun a => a.auth.isNone).length

/-- The least that the loop waits after so many. -/
def minDelay (cfg : OpenUdsConfig) (attempt : ℕ) : ℕ :=
  nextBackoff 80 attempt cfg.reconnectBaseMs.toNat cfg.reconnectMaxMs.toNat

/-- The last turn is over, and the next may begin at `t`. -/
def Due (cfg : OpenUdsConfig) (turns : List Turn) (t : ℕ) : Prop :=
  ∀ a ∈ turns.head?, ∃ e, a.ended = some e ∧ e + minDelay cfg (failures turns) ≤ t

/-- Every turn began when it might. -/
def Paced (cfg : OpenUdsConfig) : List Turn → Prop
  | [] => True
  | b :: older => Due cfg older b.began ∧ Paced cfg older

/-- On a connection nothing is sent before the authentication, and no command before PMP has
    granted the session. -/
def Attempt.Orderly (cfg : OpenUdsConfig) (a : Attempt) : Prop :=
  a.wire = [] ∧ a.auth = none ∨
    ∃ commands : List ℕ, a.wire = .authenticate (authFrame cfg.auth) :: commands.map .command ∧
      (a.auth = none → commands = [])

/-- The turn began and ended in this order, up to now. -/
def Turn.Timely (now : ℕ) (a : Turn) : Prop :=
  a.began ≤ now ∧ ∀ e, a.ended = some e → a.began ≤ e

theorem saturatingMul_mono {a a' b b' : ℕ} (ha : a ≤ a') (hb : b ≤ b') :
    saturatingMul a b ≤ saturatingMul a' b' :=
  min_le_min_right _ (Nat.mul_le_mul ha hb)

theorem nextBackoff_of_ne {attempt : ℕ} (h : attempt ≠ 0) (jitter baseMs maxMs : ℕ) :
    nextBackoff jitter attempt baseMs maxMs = min (saturatingMul (saturatingMul baseMs
      (saturatingPow 2 (min (attempt - 1) 10))) jitter / 100) maxMs := if_neg h

theorem nextBackoff_mono {jitter jitter' : ℕ} (h : jitter ≤ jitter') (attempt baseMs maxMs : ℕ) :
    nextBackoff jitter attempt baseMs maxMs ≤ nextBackoff jitter' attempt baseMs maxMs := by
  unfold nextBackoff
  split_ifs
  · exact le_rfl
  · exact min_le_min_right _ (Nat.div_le_div_right (saturatingMul_mono le_rfl h))

theorem nextBackoff_le_max (jitter attempt baseMs maxMs : ℕ) :
    nextBackoff jitter attempt baseMs maxMs ≤ maxMs := by
  unfold nextBackoff
  split_ifs
  · exact min_le_right _ _
  · exact min_le_right _ _

theorem one_le_saturatingPow (n : ℕ) : 1 ≤ saturatingPow 2 n :=
  le_min Nat.one_le_two_pow (by norm_num)

/-- The loop never waits less than after the first failure. -/
theorem minDelay_one_le (cfg : OpenUdsConfig) (attempt : ℕ) :
    minDelay cfg 1 ≤ minDelay cfg attempt := by
  have hbase : cfg.reconnectBaseMs.toNat ≤ 2 ^ 64 - 1 := by
    have := cfg.reconnectBaseMs.toNat_lt
    omega
  have hone : saturatingMul cfg.reconnectBaseMs.toNat (saturatingPow 2 (min (1 - 1) 10)) =
      cfg.reconnectBaseMs.toNat := by
    show min (cfg.reconnectBaseMs.toNat * 1) (2 ^ 64 - 1) = _
    rw [mul_one, min_eq_left hbase]
  rw [minDelay, minDelay, nextBackoff_of_ne one_ne_zero, hone]
  by_cases hattempt : attempt = 0
  · rw [nextBackoff, if_pos hattempt]
    refine min_le_min_right _ (Nat.div_le_of_le_mul ?_)
    calc saturatingMul cfg.reconnectBaseMs.toNat 80
        ≤ cfg.reconnectBaseMs.toNat * 80 := min_le_left _ _
      _ ≤ 100 * cfg.reconnectBaseMs.toNat := by omega
  · rw [nextBackoff_of_ne hattempt]
    refine min_le_min_right _ (Nat.div_le_div_right (saturatingMul_mono ?_ le_rfl))
    refine le_min ?_ hbase
    exact Nat.le_mul_of_pos_right _ (one_le_saturatingPow _)

/-- Turns are at least that far apart. -/
theorem Paced.length_le {now : ℕ} {turns : List Turn} (h : Paced cfg turns)
    (htimely : ∀ a ∈ turns, a.Timely now) :
    ∀ a ∈ turns.head?, (turns.length - 1) * minDelay cfg 1 ≤ a.began := by
  induction turns with
  | nil => nofun
  | cons b older ih =>
    intro a hb
    obtain rfl := Option.some.inj hb
    cases older with
    | nil => simp
    | cons a older =>
      have hmany := ih h.2 (fun c hc => htimely c (List.mem_cons_of_mem _ hc)) a rfl
      obtain ⟨e, he, hdue⟩ := h.1 a rfl
      have hspan := (htimely a (List.mem_cons_of_mem _ List.mem_cons_self)).2 e he
      have hdelay := minDelay_one_le cfg (failures (a :: older))
      calc ((b :: a :: older).length - 1) * minDelay cfg 1
          = ((a :: older).length - 1) * minDelay cfg 1 + minDelay cfg 1 := by
            simp only [List.length_cons, Nat.add_sub_cancel]
            ring
        _ ≤ b.began := by omega

/-! ## What holds at each place -/

/-- A turn is on. -/
def Present (s : OpenUdsClient) (auth : Option AuthenticatedFrame) : Prop :=
  ∃ a older, s.turns = a :: older ∧ a.auth = auth ∧ a.ended = none ∧ s.attempt = failures older

/-- All turns are over. -/
def Past (s : OpenUdsClient) : Prop :=
  (∀ a ∈ s.turns.head?, ∃ e, a.ended = some e ∧ e ≤ s.now) ∧ s.attempt = failures s.turns

/-- Nobody sees a connection or can write to one. -/
def Hidden (s : OpenUdsClient) : Prop := s.state.connected = false ∧ s.client.writer = false

/-- The others see the session that PMP has granted. -/
def Shows (cfg : OpenUdsConfig) (s : OpenUdsClient) (auth : AuthenticatedFrame) : Prop :=
  s.state = ⟨true, some auth.sessionId, some auth.serverVersion⟩ ∧
    s.caps = activeCapabilities cfg.capabilities (some auth.serverVersion)

def Fits (cfg : OpenUdsConfig) (s : OpenUdsClient) : Prop :=
  match s.place with
  | .looping | .entering =>
    s.client.connection = .connecting ∧ Hidden s ∧ Past s ∧ Due cfg s.turns s.now
  | .dialing | .greeted => s.client.connection = .connecting ∧ Hidden s ∧ Present s none
  | .granted auth => s.client.connection = .connecting ∧ Hidden s ∧ Present s (some auth)
  | .capped auth => s.client.connection = .connecting ∧ Hidden s ∧ Present s (some auth) ∧
      s.caps = activeCapabilities cfg.capabilities (some auth.serverVersion)
  | .stated => s.client.connection = .connecting ∧ s.client.writer = false ∧
      ∃ auth, Present s (some auth) ∧ Shows cfg s auth
  | .reading => s.client.connection = .reading ∧ ∃ auth, Present s (some auth) ∧ Shows cfg s auth
  | .resetting =>
    (s.client.connection = .disconnecting 1 ∧
      ∃ auth, Present s (some auth) ∧ Shows cfg s auth) ∨
    (s.client.connection = .disconnecting 0 ∧ Hidden s ∧ Past s)
  | .unlinking => s.state.connected = false ∧
    ((s.client.connection = .disconnecting 1 ∧ ∃ auth, Present s (some auth)) ∨
      (s.client.connection = .clearing 1 ∧ s.client.writer = false ∧
        ∃ auth, Present s (some auth)) ∨
      ((s.client.connection = .disconnecting 0 ∨ s.client.connection = .clearing 0) ∧
        s.client.writer = false ∧ Past s))
  | .disconnected => s.client.connection = .connecting ∧ Hidden s ∧ Past s
  | .sleeping since wake => s.client.connection = .connecting ∧ Hidden s ∧ Past s ∧
      since ≤ s.now ∧ Due cfg s.turns wake ∧ wake ≤ since + cfg.reconnectMaxMs.toNat
  | .stopped => s.client.connection = .stopped ∧ Hidden s ∧ Past s

/-- The record of the attempts. -/
structure Log (cfg : OpenUdsConfig) (s : OpenUdsClient) : Prop where
  paced : Paced cfg s.turns
  timely : ∀ a ∈ s.turns, a.Timely s.now
  orderly : ∀ a ∈ s.history, a.Orderly cfg
  /-- the head has sent its authentication -/
  greeted : s.place = .greeted → ∀ a ∈ s.history.head?, a.wire = [.authenticate (authFrame cfg.auth)]
  count : s.attempts.toNat = s.history.length % 2 ^ 64

/-- What is known of a `shutdown`. -/
structure Halts (s : OpenUdsClient) : Prop where
  shut : s.shutAt.isSome = s.shutdown
  late : ∀ n, s.shutAt = some n → s.history.length ≤ n + 1 ∧
    (s.place = .entering → s.history.length ≤ n)
  told : s.told = true → s.permit = true ∨ s.place = .stopped

structure Inv (cfg : OpenUdsConfig) (s : OpenUdsClient) : Prop where
  fits : Fits cfg s
  log : Log cfg s
  halts : Halts s

theorem Inv.start (cfg : OpenUdsConfig) : Inv cfg start where
  fits := ⟨rfl, ⟨rfl, rfl⟩, ⟨nofun, rfl⟩, nofun⟩
  log := ⟨trivial, nofun, nofun, nofun, rfl⟩
  halts := ⟨rfl, nofun, nofun⟩

theorem Fits.congr (h : Fits cfg s) (hplace : s'.place = s.place)
    (hconnection : s'.client.connection = s.client.connection)
    (hwriter : s'.client.writer = s.client.writer) (hstate : s'.state = s.state)
    (hcaps : s'.caps = s.caps) (hattempt : s'.attempt = s.attempt) (hnow : s'.now = s.now)
    (hturns : s'.turns = s.turns) : Fits cfg s' := by
  unfold Fits Hidden Present Past Shows at h ⊢
  rw [hplace, hconnection, hwriter, hstate, hcaps, hattempt, hnow, hturns]
  exact h

theorem Due.mono {turns : List Turn} {t t' : ℕ} (h : Due cfg turns t) (ht : t ≤ t') :
    Due cfg turns t' := by
  intro a ha
  obtain ⟨e, he, hle⟩ := h a ha
  exact ⟨e, he, hle.trans ht⟩

theorem Past.wait (h : Past s) (ms : ℕ) : Past { s with now := s.now + ms } := by
  refine ⟨fun a ha => ?_, h.2⟩
  obtain ⟨e, he, hle⟩ := h.1 a ha
  exact ⟨e, he, hle.trans (Nat.le_add_right _ _)⟩

theorem Fits.wait (h : Fits cfg s) (ms : ℕ) : Fits cfg { s with now := s.now + ms } := by
  unfold Fits at h ⊢
  cases hplace : s.place with
  | looping | entering =>
    simp only [hplace] at h ⊢
    exact ⟨h.1, h.2.1, h.2.2.1.wait ms, h.2.2.2.mono (Nat.le_add_right _ _)⟩
  | sleeping since wake =>
    simp only [hplace] at h ⊢
    obtain ⟨hconnection, hhidden, hpast, hsince, hdue⟩ := h
    exact ⟨hconnection, hhidden, hpast.wait ms, by omega, hdue⟩
  | disconnected | stopped =>
    simp only [hplace] at h ⊢
    exact ⟨h.1, h.2.1, h.2.2.wait ms⟩
  | resetting =>
    simp only [hplace] at h ⊢
    exact h.imp id fun h => ⟨h.1, h.2.1, h.2.2.wait ms⟩
  | unlinking =>
    simp only [hplace] at h ⊢
    exact ⟨h.1, h.2.imp id (Or.imp id fun h => ⟨h.1, h.2.1, h.2.2.wait ms⟩)⟩
  | _ =>
    simp only [hplace] at h ⊢
    exact h

/-! ## One step -/

/-- The turns after the one that is on has changed. -/
theorem turns_change {a b : Turn} {older : List Turn} (h : s.turns = a :: older)
    {f : Attempt → Attempt} (hf : ∀ c : Attempt, c.toTurn = a → (f c).toTurn = b) :
    (s.history.modifyHead f).map (·.toTurn) = b :: older := by
  obtain ⟨c, rest, hs, hc, hrest⟩ := List.map_eq_cons_iff.mp h
  rw [hs, List.modifyHead_cons, List.map_cons, hf c hc, hrest]

theorem Log.keep (h : Log cfg s) (hhistory : s'.history = s.history)
    (hattempts : s'.attempts = s.attempts) (hnow : s.now ≤ s'.now)
    (hplace : s'.place = .greeted → s.place = .greeted) : Log cfg s' := by
  have hturns : s'.turns = s.turns := congrArg (List.map Attempt.toTurn) hhistory
  exact ⟨hturns ▸ h.paced, fun a ha => (h.timely a (hturns ▸ ha)).imp (·.trans hnow) id,
    hhistory ▸ h.orderly, fun hs => hhistory ▸ h.greeted (hplace hs),
    by rw [hattempts, hhistory]; exact h.count⟩

/-- The turn that is on changes, but did not begin at another time. -/
theorem Log.change (h : Log cfg s) {f : Attempt → Attempt}
    (hhistory : s'.history = s.history.modifyHead f) (hattempts : s'.attempts = s.attempts)
    (hnow : s'.now = s.now)
    (hf : ∀ a ∈ s.history.head?, (f a).began = a.began ∧ (f a).Timely s.now ∧ (f a).Orderly cfg ∧
      (s'.place = .greeted → (f a).wire = [.authenticate (authFrame cfg.auth)])) :
    Log cfg s' := by
  obtain ⟨hpaced, htimely, horderly, -, hcount⟩ := h
  have hturns : s'.turns = s'.history.map (·.toTurn) := rfl
  unfold OpenUdsClient.turns at hpaced htimely
  cases hs : s.history with
  | nil =>
    rw [hs] at hcount
    have hnil : s'.history = [] := by rw [hhistory, hs]; rfl
    refine ⟨?_, ?_, ?_, ?_, by rw [hattempts, hnil]; exact hcount⟩
    · rw [hturns, hnil]
      trivial
    · rw [hturns, hnil]
      nofun
    · rw [hnil]
      nofun
    · rw [hnil]
      exact fun _ => nofun
  | cons a older =>
    obtain ⟨hbegan, hftimely, hforderly, hgreeted⟩ := hf a (by rw [hs]; rfl)
    have hcons : s'.history = f a :: older := by rw [hhistory, hs]; rfl
    rw [hs] at hpaced htimely horderly hcount
    refine ⟨?_, ?_, ?_, ?_, by rw [hattempts, hcons]; exact hcount⟩
    · rw [hturns, hcons]
      exact ⟨hbegan ▸ hpaced.1, hpaced.2⟩
    · rw [hturns, hcons, hnow]
      intro b hb
      rcases List.mem_cons.mp hb with rfl | hb
      · exact hftimely
      · exact htimely b (List.mem_cons_of_mem _ hb)
    · rw [hcons]
      intro b hb
      rcases List.mem_cons.mp hb with rfl | hb
      · exact hforderly
      · exact horderly b (List.mem_cons_of_mem _ hb)
    · rw [hcons]
      intro hplace b hb
      obtain rfl := Option.some.inj hb
      exact hgreeted hplace

theorem Log.head (h : Log cfg s) {a : Attempt} (ha : a ∈ s.history.head?) :
    a.Timely s.now ∧ a.Orderly cfg := by
  have hmem := List.mem_of_mem_head? ha
  exact ⟨h.timely _ (List.mem_map_of_mem hmem), h.orderly a hmem⟩

theorem Halts.move (h : Halts s) (hlength : s'.history.length = s.history.length)
    (hshut : s'.shutdown = s.shutdown) (hat : s'.shutAt = s.shutAt) (htold : s'.told = s.told)
    (hentering : s'.place = .entering → s.place = .entering)
    (hpermit : s'.place = .stopped ∨ s.place ≠ .stopped ∧ s'.permit = s.permit) : Halts s' := by
  refine ⟨by rw [hat, hshut]; exact h.shut, fun n hn => ?_, fun ht => ?_⟩
  · rw [hlength]
    obtain ⟨hle, henter⟩ := h.late n (hat ▸ hn)
    exact ⟨hle, fun hs => henter (hentering hs)⟩
  · rcases hpermit with hstopped | ⟨hplace, heq⟩
    · exact .inr hstopped
    · rcases h.told (htold ▸ ht) with hpermit | hstopped
      · exact .inl (heq ▸ hpermit)
      · exact absurd hstopped hplace

/-- The loop stops between two attempts. -/
theorem Inv.stop (hI : Inv cfg s) (hconnection : s.client.connection = .connecting)
    (hhidden : Hidden s) (hpast : Past s) (h : s.link y .stop .stopped = some s') :
    Inv cfg s' := by
  obtain ⟨c, hc, rfl⟩ := link_spec h
  simp only [connectionStep, hconnection, Option.some.injEq] at hc
  subst hc
  exact ⟨⟨rfl, hhidden, hpast⟩, hI.log.keep rfl rfl le_rfl nofun,
    hI.halts.move rfl rfl rfl rfl nofun (.inl rfl)⟩

theorem Inv.enter (hI : Inv cfg s) (hplace : s.place = .looping)
    (h : s.onTask x cfg .enter = some s') : Inv cfg s' := by
  have hfits := hI.fits
  simp only [Fits, hplace] at hfits
  unfold OpenUdsClient.onTask at h
  simp only [hplace] at h
  split_ifs at h with hshut
  · exact hI.stop hfits.1 hfits.2.1 hfits.2.2.1 h
  · obtain rfl := Option.some.inj h
    refine ⟨hfits, hI.log.keep rfl rfl le_rfl nofun, hI.halts.shut, fun n hn => ?_, fun ht => ?_⟩
    · have hsome := hI.halts.shut
      rw [show s.shutAt = some n from hn, Option.isSome_some] at hsome
      exact absurd hsome.symm hshut
    · refine (hI.halts.told ht).imp id fun hstopped => ?_
      rw [hplace] at hstopped
      cases hstopped

theorem Inv.begin (hI : Inv cfg s) (hplace : s.place = .entering)
    (h : s.onTask x cfg .begin = some s') : Inv cfg s' := by
  have hfits := hI.fits
  simp only [Fits, hplace] at hfits
  obtain ⟨hconnection, hhidden, hpast, hdue⟩ := hfits
  unfold OpenUdsClient.onTask at h
  simp only [hplace, Option.some.injEq] at h
  subst h
  refine ⟨⟨hconnection, hhidden, _, _, rfl, rfl, rfl, hpast.2⟩, ⟨⟨hdue, hI.log.paced⟩, ?_, ?_, nofun,
    ?_⟩, hI.halts.shut, fun n hn => ?_, fun ht => ?_⟩
  · intro a ha
    rcases List.mem_cons.mp ha with rfl | ha
    · exact ⟨le_rfl, nofun⟩
    · exact hI.log.timely a ha
  · intro a ha
    rcases List.mem_cons.mp ha with rfl | ha
    · exact .inl ⟨rfl, rfl⟩
    · exact hI.log.orderly a ha
  · have hcount := hI.log.count
    rw [UInt64.toNat_add, hcount]
    show (s.history.length % 2 ^ 64 + 1) % 2 ^ 64 = (s.history.length + 1) % 2 ^ 64
    omega
  · exact ⟨Nat.succ_le_succ ((hI.halts.late n hn).2 hplace), nofun⟩
  · refine (hI.halts.told ht).imp id fun hstopped => ?_
    rw [hplace] at hstopped
    cases hstopped

/-- What the loop counts when the turn that is on ends. -/
theorem Present.ends {auth : Option AuthenticatedFrame} (h : Present s auth)
    (hhistory : s'.history = s.history.modifyHead fun a => { a with ended := some s.now })
    (hnow : s'.now = s.now)
    (hattempt : s'.attempt = if auth.isNone = true then s.attempt + 1 else 0) : Past s' := by
  obtain ⟨a, older, hturns, hauth, -, hcounted⟩ := h
  have hends : s'.turns = { a with ended := some s.now } :: older := by
    rw [OpenUdsClient.turns, hhistory]
    refine turns_change hturns fun c hc => ?_
    rw [← hc]
  refine ⟨fun b hb => ?_, ?_⟩
  · rw [hends] at hb
    obtain rfl := Option.some.inj hb
    exact ⟨s.now, rfl, hnow.ge⟩
  · rw [hends, hattempt, hcounted, ← hauth, failures, failures, List.takeWhile_cons]
    cases a.auth <;> rfl

theorem Log.ends (h : Log cfg s) (hattempts : s'.attempts = s.attempts) (hnow : s'.now = s.now)
    (hhistory : s'.history = s.history.modifyHead fun a => { a with ended := some s.now })
    (hplace : s'.place ≠ .greeted) : Log cfg s' := by
  refine h.change hhistory hattempts hnow fun a ha => ⟨rfl, ⟨(h.head ha).1.1, fun e he => ?_⟩,
    (h.head ha).2, fun hs => absurd hs hplace⟩
  obtain rfl := Option.some.inj he
  exact (h.head ha).1.1

theorem Inv.fail (hI : Inv cfg s) (hplace : s.place = .dialing ∨ s.place = .greeted)
    (h : s.fail y = some s') : Inv cfg s' := by
  have hfits : s.client.connection = .connecting ∧ Hidden s ∧ Present s none := by
    have hfits := hI.fits
    unfold Fits at hfits
    rcases hplace with hplace | hplace <;> (simp only [hplace] at hfits; exact hfits)
  obtain ⟨hconnection, hhidden, hpresent⟩ := hfits
  obtain ⟨c, hc, rfl⟩ := link_spec h
  simp only [connectionStep, hconnection, Option.some.injEq] at hc
  subst hc
  refine ⟨.inr ⟨rfl, hhidden, hpresent.ends rfl rfl rfl⟩, hI.log.ends rfl rfl rfl nofun,
    hI.halts.move (List.length_modifyHead ..) rfl rfl rfl nofun (.inr ⟨?_, rfl⟩)⟩
  rcases hplace with hplace | hplace <;> (rw [hplace]; nofun)

theorem Inv.greet (hI : Inv cfg s) (hplace : s.place = .dialing)
    (h : s.onTask x cfg .greet = some s') : Inv cfg s' := by
  have hfits := hI.fits
  simp only [Fits, hplace] at hfits
  obtain ⟨hconnection, hhidden, a, older, hturns, hauth, hended, hcounted⟩ := hfits
  unfold OpenUdsClient.onTask at h
  simp only [hplace, Option.some.injEq] at h
  subst h
  refine ⟨⟨hconnection, hhidden, a, older, ?_, hauth, hended, hcounted⟩,
    hI.log.change rfl rfl rfl fun b hb => ⟨rfl, (hI.log.head hb).1, .inr ⟨[], rfl, fun _ => rfl⟩,
      fun _ => rfl⟩,
    hI.halts.move (List.length_modifyHead ..) rfl rfl rfl nofun (.inr ⟨by rw [hplace]; nofun, rfl⟩)⟩
  exact turns_change hturns fun c hc => hc

theorem Inv.first (hI : Inv cfg s) (hplace : s.place = .greeted) {first : Except String Json}
    (h : s.onTask x cfg (.first first) = some s') : Inv cfg s' := by
  unfold OpenUdsClient.onTask at h
  simp only [hplace] at h
  split at h
  · rename_i auth _
    have hfits := hI.fits
    simp only [Fits, hplace] at hfits
    obtain ⟨hconnection, hhidden, a, older, hturns, -, hended, hcounted⟩ := hfits
    obtain rfl := Option.some.inj h
    refine ⟨⟨hconnection, hhidden, { a with auth := some auth }, older, ?_, rfl, hended, hcounted⟩,
      hI.log.change rfl rfl rfl fun b hb => ⟨rfl, (hI.log.head hb).1,
        .inr ⟨[], hI.log.greeted hplace b hb, nofun⟩, nofun⟩,
      hI.halts.move (List.length_modifyHead ..) rfl rfl rfl nofun
        (.inr ⟨by rw [hplace]; nofun, rfl⟩)⟩
    refine turns_change hturns fun c hc => ?_
    rw [← hc]
  · exact hI.fail (.inr hplace) h

/-- The task does something to what the others see, and nothing to its record. -/
theorem Inv.moves (hI : Inv cfg s) (hfits : Fits cfg s') (hhistory : s'.history = s.history)
    (hrest : s'.attempts = s.attempts ∧ s'.now = s.now ∧ s'.shutdown = s.shutdown ∧
      s'.shutAt = s.shutAt ∧ s'.told = s.told ∧ s'.permit = s.permit)
    (hplace : s.place ≠ .stopped) (hgreeted : s'.place ≠ .greeted)
    (hentering : s'.place ≠ .entering) : Inv cfg s' := by
  obtain ⟨hattempts, hnow, hshut, hat, htold, hpermit⟩ := hrest
  exact ⟨hfits, hI.log.keep hhistory hattempts hnow.ge fun h => absurd h hgreeted,
    hI.halts.move (congrArg _ hhistory) hshut hat htold (fun h => absurd h hentering)
      (.inr ⟨hplace, hpermit⟩)⟩

theorem Inv.publish (hI : Inv cfg s) {l : Step}
    (hl : l = .writeCaps ∧ (∃ auth, s.place = .granted auth) ∨
      l = .writeState ∧ (∃ auth, s.place = .capped auth) ∨ l = .resetState ∧ s.place = .resetting)
    (h : s.onTask x cfg l = some s') : Inv cfg s' := by
  have hfits := hI.fits
  obtain ⟨rfl, auth, hplace⟩ | ⟨rfl, auth, hplace⟩ | ⟨rfl, hplace⟩ := hl
  · simp only [Fits, hplace] at hfits
    unfold OpenUdsClient.onTask at h
    simp only [hplace, Option.some.injEq] at h
    subst h
    exact hI.moves ⟨hfits.1, hfits.2.1, hfits.2.2, rfl⟩ rfl ⟨rfl, rfl, rfl, rfl, rfl, rfl⟩
      (by rw [hplace]; nofun) nofun nofun
  · simp only [Fits, hplace] at hfits
    obtain ⟨hconnection, hhidden, hpresent, hcaps⟩ := hfits
    unfold OpenUdsClient.onTask at h
    simp only [hplace, Option.some.injEq] at h
    subst h
    exact hI.moves ⟨hconnection, hhidden.2, auth, hpresent, rfl, hcaps⟩ rfl
      ⟨rfl, rfl, rfl, rfl, rfl, rfl⟩ (by rw [hplace]; nofun) nofun nofun
  · simp only [Fits, hplace] at hfits
    unfold OpenUdsClient.onTask at h
    simp only [hplace, Option.some.injEq] at h
    subst h
    refine hI.moves ⟨rfl, ?_⟩ rfl ⟨rfl, rfl, rfl, rfl, rfl, rfl⟩ (by rw [hplace]; nofun) nofun nofun
    rcases hfits with ⟨hconnection, auth, hpresent, -⟩ | ⟨hconnection, hhidden, hpast⟩
    · exact .inl ⟨hconnection, auth, hpresent⟩
    · exact .inr (.inr ⟨.inl hconnection, hhidden.2, hpast⟩)

/-- The connection comes up, is read, and ends. -/
theorem Inv.reads (hI : Inv cfg s) {l : Step}
    (hl : l = .install ∧ s.place = .stated ∨
      ((∃ value, l = .frame value) ∨ l = .endOfStream) ∧ s.place = .reading)
    (h : s.onTask x cfg l = some s') : Inv cfg s' := by
  have hfits := hI.fits
  obtain ⟨rfl, hplace⟩ | ⟨⟨value, rfl⟩ | rfl, hplace⟩ := hl
  · simp only [Fits, hplace] at hfits
    obtain ⟨hconnection, -, hsession⟩ := hfits
    unfold OpenUdsClient.onTask at h
    simp only [hplace] at h
    obtain ⟨c, hc, rfl⟩ := link_spec h
    simp only [connectionStep, hconnection] at hc
    split_ifs at hc
    obtain rfl := Option.some.inj hc
    exact hI.moves ⟨rfl, hsession⟩ rfl ⟨rfl, rfl, rfl, rfl, rfl, rfl⟩ (by rw [hplace]; nofun) nofun
      nofun
  · simp only [Fits, hplace] at hfits
    unfold OpenUdsClient.onTask at h
    simp only [hplace] at h
    obtain ⟨c, hc, rfl⟩ := link_spec h
    simp only [connectionStep, hfits.1, Option.some.injEq] at hc
    subst hc
    exact hI.moves ⟨(onFrame_keeps s.client value).1.trans hfits.1, hfits.2⟩ rfl
      ⟨rfl, rfl, rfl, rfl, rfl, rfl⟩ (by rw [hplace]; nofun) nofun nofun
  · simp only [Fits, hplace] at hfits
    unfold OpenUdsClient.onTask at h
    simp only [hplace] at h
    obtain ⟨c, hc, rfl⟩ := link_spec h
    simp only [connectionStep, hfits.1, Option.some.injEq] at hc
    subst hc
    exact hI.moves (.inl ⟨rfl, hfits.2⟩) rfl ⟨rfl, rfl, rfl, rfl, rfl, rfl⟩
      (by rw [hplace]; nofun) nofun nofun

theorem Inv.dropWriter (hI : Inv cfg s) (hplace : s.place = .unlinking)
    (h : s.onTask x cfg .dropWriter = some s') : Inv cfg s' := by
  have hfits := hI.fits
  simp only [Fits, hplace] at hfits
  obtain ⟨hdown, hfits⟩ := hfits
  unfold OpenUdsClient.onTask at h
  simp only [hplace] at h
  obtain ⟨c, hc, rfl⟩ := link_spec h
  refine hI.moves ⟨hdown, ?_⟩ rfl ⟨rfl, rfl, rfl, rfl, rfl, rfl⟩ (by rw [hplace]; nofun) nofun nofun
  rcases hfits with ⟨hconnection, hsession⟩ | ⟨hconnection, -⟩ | ⟨hconnection | hconnection, -, hpast⟩
  · simp only [connectionStep, hconnection] at hc
    split_ifs at hc
    obtain rfl := Option.some.inj hc
    exact .inr (.inl ⟨rfl, rfl, hsession⟩)
  · simp only [connectionStep, hconnection, reduceCtorEq] at hc
  · simp only [connectionStep, hconnection] at hc
    split_ifs at hc
    obtain rfl := Option.some.inj hc
    exact .inr (.inr ⟨.inr rfl, rfl, hpast⟩)
  · simp only [connectionStep, hconnection, reduceCtorEq] at hc

theorem Inv.clearPending (hI : Inv cfg s) (hplace : s.place = .unlinking)
    (h : s.onTask x cfg .clearPending = some s') : Inv cfg s' := by
  have hfits := hI.fits
  simp only [Fits, hplace] at hfits
  obtain ⟨hdown, hfits⟩ := hfits
  unfold OpenUdsClient.onTask at h
  simp only [hplace] at h
  rcases hfits with ⟨hconnection, -⟩ | ⟨hconnection, hwriter, auth, hpresent⟩ |
    ⟨hconnection | hconnection, hwriter, hpast⟩
  · simp only [hconnection, reduceCtorEq] at h
  · simp only [hconnection] at h
    obtain ⟨c, hc, rfl⟩ := link_spec h
    simp only [connectionStep, hconnection, Option.some.injEq] at hc
    subst hc
    exact ⟨.inr ⟨rfl, ⟨hdown, hwriter⟩, hpresent.ends rfl rfl rfl⟩, hI.log.ends rfl rfl rfl nofun,
      hI.halts.move (List.length_modifyHead ..) rfl rfl rfl nofun
        (.inr ⟨by rw [hplace]; nofun, rfl⟩)⟩
  · simp only [hconnection, reduceCtorEq] at h
  · simp only [hconnection] at h
    obtain ⟨c, hc, rfl⟩ := link_spec h
    simp only [connectionStep, hconnection, Option.some.injEq] at hc
    subst hc
    exact hI.moves ⟨rfl, ⟨hdown, hwriter⟩, hpast⟩ rfl ⟨rfl, rfl, rfl, rfl, rfl, rfl⟩
      (by rw [hplace]; nofun) nofun nofun

theorem Inv.leave (hI : Inv cfg s) (hplace : s.place = .disconnected) {jitter : ℕ}
    (h : s.onTask x cfg (.leave jitter) = some s') : Inv cfg s' := by
  have hfits := hI.fits
  simp only [Fits, hplace] at hfits
  obtain ⟨hconnection, hhidden, hpast⟩ := hfits
  unfold OpenUdsClient.onTask at h
  simp only [hplace] at h
  split_ifs at h with hshut hjitter
  · exact hI.stop hconnection hhidden hpast h
  · obtain rfl := Option.some.inj h
    refine hI.moves ⟨hconnection, hhidden, hpast, le_rfl, fun a ha => ?_,
      Nat.add_le_add_left (nextBackoff_le_max ..) _⟩ rfl ⟨rfl, rfl, rfl, rfl, rfl, rfl⟩
      (by rw [hplace]; nofun) nofun nofun
    obtain ⟨e, he, hle⟩ := hpast.1 a ha
    refine ⟨e, he, Nat.add_le_add hle ?_⟩
    rw [hpast.2]
    exact nextBackoff_mono hjitter.1 _ _ _

theorem Inv.wakes (hI : Inv cfg s) {since wake : ℕ} (hplace : s.place = .sleeping since wake)
    {l : Step} (hl : l = .wake ∨ l = .notified) (h : s.onTask x cfg l = some s') :
    Inv cfg s' := by
  have hfits := hI.fits
  simp only [Fits, hplace] at hfits
  obtain ⟨hconnection, hhidden, hpast, -, hdue, -⟩ := hfits
  rcases hl with rfl | rfl
  · unfold OpenUdsClient.onTask at h
    simp only [hplace] at h
    split_ifs at h with hwake
    obtain rfl := Option.some.inj h
    exact hI.moves ⟨hconnection, hhidden, hpast, hdue.mono hwake⟩ rfl ⟨rfl, rfl, rfl, rfl, rfl, rfl⟩
      (by rw [hplace]; nofun) nofun nofun
  · unfold OpenUdsClient.onTask at h
    simp only [hplace] at h
    split_ifs at h
    obtain ⟨c, hc, rfl⟩ := link_spec h
    simp only [connectionStep, hconnection, Option.some.injEq] at hc
    subst hc
    exact ⟨⟨rfl, hhidden, hpast⟩, hI.log.keep rfl rfl le_rfl nofun,
      hI.halts.move rfl rfl rfl rfl nofun (.inl rfl)⟩

theorem Inv.onTask (hI : Inv cfg s) {l : Step} (h : s.onTask x cfg l = some s') : Inv cfg s' := by
  have hl := h
  unfold OpenUdsClient.onTask at hl
  split at hl <;> rename_i hplace
  · exact hI.enter hplace h
  · exact hI.begin hplace h
  · unfold OpenUdsClient.onTask at h
    simp only [hplace] at h
    exact hI.fail (.inl hplace) h
  · exact hI.greet hplace h
  · exact hI.first hplace h
  · exact hI.publish (.inl ⟨rfl, _, hplace⟩) h
  · exact hI.publish (.inr (.inl ⟨rfl, _, hplace⟩)) h
  · exact hI.reads (.inl ⟨rfl, hplace⟩) h
  · exact hI.reads (.inr ⟨.inl ⟨_, rfl⟩, hplace⟩) h
  · exact hI.reads (.inr ⟨.inr rfl, hplace⟩) h
  · exact hI.publish (.inr (.inr ⟨rfl, hplace⟩)) h
  · exact hI.dropWriter hplace h
  · exact hI.clearPending hplace h
  · exact hI.leave hplace h
  · exact hI.wakes hplace (.inl rfl) h
  · exact hI.wakes hplace (.inr rfl) h
  · cases hl

/-- There is a writer only in a session. -/
theorem Fits.session (h : Fits cfg s) (hwriter : s.client.writer = true) :
    (∃ auth, Present s (some auth)) ∧ s.place ≠ .greeted := by
  have hhidden : ¬ Hidden s := fun hhidden => by
    rw [hhidden.2] at hwriter
    cases hwriter
  unfold Fits at h
  cases hplace : s.place with
  | reading =>
    simp only [hplace] at h
    obtain ⟨-, auth, hpresent, -⟩ := h
    exact ⟨⟨auth, hpresent⟩, nofun⟩
  | resetting =>
    simp only [hplace] at h
    rcases h with ⟨-, auth, hpresent, -⟩ | ⟨-, hno, -⟩
    · exact ⟨⟨auth, hpresent⟩, nofun⟩
    · exact absurd hno hhidden
  | unlinking =>
    simp only [hplace] at h
    rcases h.2 with ⟨-, hsession⟩ | ⟨-, hno, -⟩ | ⟨-, hno, -⟩
    · exact ⟨hsession, nofun⟩
    · rw [hno] at hwriter
      cases hwriter
    · rw [hno] at hwriter
      cases hwriter
  | stated =>
    simp only [hplace] at h
    rw [h.2.1] at hwriter
    cases hwriter
  | _ =>
    simp only [hplace] at h
    exact absurd h.2.1 hhidden

/-- The others are told of a connection only in its session. -/
theorem Fits.shown (h : Fits cfg s) (hconnected : s.state.connected = true) :
    ∃ auth, Present s (some auth) ∧ Shows cfg s auth := by
  have hhidden : ¬ Hidden s := fun hhidden => by
    rw [hhidden.1] at hconnected
    cases hconnected
  unfold Fits at h
  cases hplace : s.place with
  | reading =>
    simp only [hplace] at h
    exact h.2
  | stated =>
    simp only [hplace] at h
    exact h.2.2
  | resetting =>
    simp only [hplace] at h
    rcases h with ⟨-, hsession⟩ | ⟨-, hno, -⟩
    · exact hsession
    · exact absurd hno hhidden
  | unlinking =>
    simp only [hplace] at h
    rw [h.1] at hconnected
    cases hconnected
  | _ =>
    simp only [hplace] at h
    exact absurd h.2.1 hhidden

/-- A command joins what was sent in the session. -/
theorem Attempt.Orderly.command {a : Attempt} (h : a.Orderly cfg) (hauth : a.auth ≠ none) (i : ℕ) :
    ({ a with wire := a.wire ++ [.command i] } : Attempt).Orderly cfg := by
  rcases h with ⟨-, hnone⟩ | ⟨commands, hwire, -⟩
  · exact absurd hnone hauth
  · refine .inr ⟨commands ++ [i], ?_, fun hnone => absurd hnone hauth⟩
    show a.wire ++ [.command i] = _
    rw [hwire, List.map_append]
    rfl

theorem Inv.call (hI : Inv cfg s) {l : OpenUds.Step} (h : s.onCall y l = some s') : Inv cfg s' := by
  obtain ⟨c, hc, rfl⟩ := Option.map_eq_some_iff.mp h
  obtain ⟨hconnection, hwriter⟩ := callStep_keeps hc
  have hsame : ∀ history : List Attempt, history = s.history →
      Inv cfg { s with client := c, history := history } := by
    rintro _ rfl
    exact ⟨hI.fits.congr rfl hconnection hwriter rfl rfl rfl rfl rfl,
      hI.log.keep rfl rfl le_rfl id, hI.halts.shut, hI.halts.late, hI.halts.told⟩
  cases l with
  | lock i =>
    by_cases hholder : c.holder = some i
    · obtain ⟨⟨auth, a, older, hturns, hauth, -⟩, hplace⟩ :=
        hI.fits.session (writer_of_lock hc hholder)
      have hhistory : s.history.modifyHead (fun a => { a with wire := a.wire ++ [.command i] }) =
          (if c.holder = some i then
            s.history.modifyHead fun a => { a with wire := a.wire ++ [.command i] }
          else s.history) := (if_pos hholder).symm
      show Inv cfg { s with client := c, history := if c.holder = some i then _ else _ }
      rw [← hhistory]
      have hhead : ∀ b ∈ s.history.head?, b.auth ≠ none := by
        intro b hb
        obtain ⟨d, rest, hs, hd, -⟩ := List.map_eq_cons_iff.mp hturns
        rw [hs] at hb
        obtain rfl := Option.some.inj hb
        rw [hd, hauth]
        nofun
      refine ⟨hI.fits.congr rfl hconnection hwriter rfl rfl rfl rfl ?_,
        hI.log.change rfl rfl rfl fun b hb => ⟨rfl, (hI.log.head hb).1,
          (hI.log.head hb).2.command (hhead b hb) i, fun hs => absurd hs hplace⟩,
        hI.halts.shut, fun n hn => ?_, hI.halts.told⟩
      · refine Eq.trans ?_ hturns.symm
        exact turns_change hturns (f := fun b => { b with wire := b.wire ++ [.command i] })
          fun _ hd => hd
      · have hlength : (s.history.modifyHead
            fun a => { a with wire := a.wire ++ [.command i] }).length = s.history.length :=
          List.length_modifyHead ..
        show List.length _ ≤ _ ∧ (_ → List.length _ ≤ _)
        rw [hlength]
        exact hI.halts.late n hn
    · exact hsame _ (if_neg hholder)
  | _ => exact hsame _ rfl

theorem Inv.step (hI : Inv cfg s) {l : Step} (h : step x cfg s l = some s') : Inv cfg s' := by
  cases l with
  | call l => exact hI.call h
  | wait ms =>
    obtain rfl := Option.some.inj h
    exact ⟨hI.fits.wait ms, hI.log.keep rfl rfl (Nat.le_add_right _ _) id, hI.halts.shut,
      hI.halts.late, hI.halts.told⟩
  | shut =>
    obtain rfl := Option.some.inj h
    refine ⟨hI.fits.congr rfl rfl rfl rfl rfl rfl rfl rfl, hI.log.keep rfl rfl le_rfl id, ?_,
      fun n hn => ?_, hI.halts.told⟩
    · show (s.shutAt.or _).isSome = true
      simp
    · cases hat : s.shutAt with
      | none =>
        have hlength : s.history.length = n := by simpa [hat] using hn
        exact ⟨hlength.le.trans (Nat.le_succ n), fun _ => hlength.le⟩
      | some m =>
        have hm : m = n := by simpa [hat] using hn
        exact hI.halts.late n (hm ▸ hat)
  | notify =>
    simp only [Reconnect.step] at h
    split_ifs at h
    obtain rfl := Option.some.inj h
    exact ⟨hI.fits.congr rfl rfl rfl rfl rfl rfl rfl rfl, hI.log.keep rfl rfl le_rfl id,
      hI.halts.shut, hI.halts.late, fun _ => .inl rfl⟩
  | _ => exact hI.onTask h

/-! ## Whole runs -/

theorem inv_run (hrun : Reaches (step x cfg) Few start s) : Inv cfg s :=
  hrun.invariant (.start cfg) fun _ _ _ hI _ h => hI.step h

/-- The attempt that is on, and PMP has granted a session in it. -/
def InSession (s : OpenUdsClient) (auth : AuthenticatedFrame) : Prop :=
  ∃ a older, s.history = a :: older ∧ a.auth = some auth ∧ a.ended = none

theorem Present.inSession {auth : AuthenticatedFrame} (h : Present s (some auth)) :
    InSession s auth := by
  obtain ⟨a, older, hturns, hauth, hended, -⟩ := h
  obtain ⟨d, rest, hs, rfl, -⟩ := List.map_eq_cons_iff.mp hturns
  exact ⟨d, rest, hs, hauth, hended⟩

theorem client_run (hrun : Reaches (step x cfg) Few start s) :
    Reaches (OpenUds.step (x.calls cfg)) OpenUds.Few .start s.client :=
  hrun.project (·.client) fun _ _ _ _ hfew h => client_step hfew h

/-- Asleep, the task goes when `shutdown` has returned. -/
theorem Inv.woken (hI : Inv cfg s) (x : Extern) {since wake : ℕ} (htold : s.told = true)
    (hplace : s.place = .sleeping since wake) :
    ∃ s', Reconnect.step x cfg s .notified = some s' ∧ s'.place = .stopped := by
  have hfits := hI.fits
  simp only [Fits, hplace] at hfits
  have hpermit : s.permit = true := by
    refine (hI.halts.told htold).resolve_right fun hstopped => ?_
    rw [hplace] at hstopped
    cases hstopped
  unfold Reconnect.step OpenUdsClient.onTask
  simp only [hplace, hpermit, if_true,
    OpenUdsClient.link, connectionStep, hfits.1, Option.map_some]
  exact ⟨_, rfl, rfl⟩

theorem Inv.spread (hI : Inv cfg s) : (s.history.length - 1) * minDelay cfg 1 ≤ s.now := by
  have hlength := hI.log.paced.length_le hI.log.timely
  have hturns : s.turns.length = s.history.length := List.length_map _
  rw [hturns] at hlength
  cases hs : s.turns with
  | nil =>
    rw [← hturns, hs]
    simp
  | cons a older =>
    have hmem : a ∈ s.turns := by
      rw [hs]
      exact List.mem_cons_self
    exact (hlength a (by rw [hs]; rfl)).trans (hI.log.timely a hmem).1

/-- In every run of the task, of the calls and of those who call `shutdown`: the calls and the
    writer are as in a run of `Client`; `state` tells of a connection, with the capabilities that
    go with it, and there is a writer, only while the session is on that PMP has granted; on no
    connection is anything sent before the authentication, or a command before the grant; a turn
    begins when the waiting after the last one is over, which grows with the failures in a row,
    is never less than after the first failure, and is never more than the maximum; and after
    the first `shutdown` at most one turn begins, and none is waited for. -/
theorem connection_life (x : Extern) (cfg : OpenUdsConfig) (s : OpenUdsClient)
    (hrun : Reaches (step x cfg) Few start s) :
    Reaches (OpenUds.step (x.calls cfg)) OpenUds.Few .start s.client ∧
    (s.state.connected = true → ∃ auth, InSession s auth ∧ Shows cfg s auth) ∧
    (s.client.writer = true → ∃ auth, InSession s auth) ∧
    (∀ a ∈ s.history, a.Orderly cfg) ∧
    s.attempts.toNat = s.history.length % 2 ^ 64 ∧
    Paced cfg s.turns ∧
    (s.history.length - 1) * minDelay cfg 1 ≤ s.now ∧
    (∀ since wake, s.place = .sleeping since wake →
      Due cfg s.turns wake ∧ wake ≤ since + cfg.reconnectMaxMs.toNat) ∧
    (∀ n, s.shutAt = some n → s.history.length ≤ n + 1) ∧
    ∀ since wake, s.told = true → s.place = .sleeping since wake →
      ∃ s', step x cfg s .notified = some s' ∧ s'.place = .stopped := by
  have hI := inv_run hrun
  refine ⟨client_run hrun, fun hconnected => ?_, fun hwriter => ?_, hI.log.orderly, hI.log.count,
    hI.log.paced, hI.spread, fun since wake hplace => ?_, fun n hn => (hI.halts.late n hn).1,
    fun since wake htold hplace => hI.woken x htold hplace⟩
  · obtain ⟨auth, hpresent, hshows⟩ := hI.fits.shown hconnected
    exact ⟨auth, hpresent.inSession, hshows⟩
  · obtain ⟨auth, hpresent⟩ := (hI.fits.session hwriter).1
    exact ⟨auth, hpresent.inSession⟩
  · have hfits := hI.fits
    simp only [Fits, hplace] at hfits
    exact hfits.2.2.2.2

def sampleConfig : OpenUdsConfig := ⟨.token "t", 500, 30000, 10000, ["room.chat_send", "other"]⟩

def sampleGrant : AuthenticatedFrame := ⟨"s", "1.0.38"⟩

def sampleReader : Extern := ⟨fun _ => none, fun _ => .ok sampleGrant⟩

/-- The socket is not there at first; then PMP grants a session, and a command is sent. -/
def sampleSteps : List Step :=
  [.enter, .begin, .refused "no such file", .resetState, .dropWriter, .clearPending, .leave 80,
    .wait 400, .wake, .enter, .begin, .greet, .first (.ok (.obj [("type", .str "authenticated")])),
    .call (.begin "room.list" none), .call (.insert 0), .writeCaps, .writeState, .install,
    .call (.lock 0)]

theorem connection_life_granted : ∃ s, Reaches (step sampleReader sampleConfig) Few start s ∧
    s.history.map (·.wire) =
      [[.authenticate (authFrame (.token "t")), .command 0], []] ∧
    s.caps = {"room.chat_send"} ∧ ∃ auth, InSession s auth ∧ Shows sampleConfig s auth := by
  have htest : ∀ (s : OpenUdsClient) (l : Step),
      decide (s.client.calls.length + 1 < 2 ^ 64) = true → Few s l := by
    intro s l h
    cases l with
    | call l =>
      cases l with
      | begin command timeoutMs =>
        have hfew : s.client.calls.length + 1 < 2 ^ 64 := of_decide_eq_true h
        exact hfew
      | _ => trivial
    | _ => trivial
  have hrun : (runWhile (step sampleReader sampleConfig)
      (fun s _ => decide (s.client.calls.length + 1 < 2 ^ 64)) start sampleSteps).any
        (fun s => decide (s.state.connected = true ∧ s.caps = {"room.chat_send"} ∧
          s.history.map (·.wire) =
            [[.authenticate (authFrame (.token "t")), .command 0], []])) = true := by
    decide +kernel
  obtain ⟨s, hs, hp⟩ := exists_reaches_of_runWhile htest hrun
  obtain ⟨hconnected, hcaps, hwire⟩ := of_decide_eq_true hp
  exact ⟨s, hs, hwire, hcaps,
    (connection_life sampleReader sampleConfig s hs).2.1 hconnected⟩

end Ppb.OpenUds.Reconnect
