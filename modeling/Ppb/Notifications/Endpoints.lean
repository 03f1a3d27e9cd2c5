import Ppb.Common.Table
import Ppb.Notifications.Push
import Ppb.Server.Error
import Ppb.Server.Types

/-!
# Push endpoints (`app.rs`, `notifications/mod.rs`, `notifications/push.rs`)

A user registers a device with a channel and a subscription, over and over, and deletes it by the
id of its endpoint. `notify` sends to what is registered, and leaves `web_push` out if there is
another channel.

The log is what the user has done: of each device the registrations since it was last deleted
(`since`). The row of a device has the subscription of the last of them, but the channel of the
first, since the `INSERT … ON CONFLICT DO UPDATE` does not write it (`run_recorded`).

* `last_write_wins_iff`: the histories after which `notify` sends by the last registrations.

Deviations: the columns `created_at`, `last_seen_at` and `disabled_at` are left out; nothing sets
the last of them. The server has a database: the error of `require_db` is left out.
-/

namespace Ppb.Notifications

/-! ## The code -/

/-- `SubscriptionWire` (push.rs:250-256). -/
structure SubscriptionWire where
  endpoint : String
  p256dh : String
  auth : String
  deriving DecidableEq, Repr

/-- What the code takes from `serde_json`, `base64` and `CredentialCipher`. -/
structure Sealing where
  Plain : Type
  Blob : Type
  Nonce : Type
  toVec : SubscriptionWire → Plain
  fromSlice : Plain → Option SubscriptionWire
  encrypt : Nonce → Plain → Except ApiError Blob
  decrypt : Blob → Option Plain
  decode64 : String → Option (List UInt8)
  fromSlice_toVec : ∀ wire, fromSlice (toVec wire) = some wire
  decrypt_encrypt : ∀ {nonce plain blob}, encrypt nonce plain = .ok blob → decrypt blob = some plain

variable (c : Sealing)

/-- A row of `push_endpoints`. -/
structure PushEndpoint where
  id : Uuid
  userId : Uuid
  deviceId : String
  channel : String
  endpointCiphertext : c.Blob
  platform : String

/-- `PRIMARY KEY (id)` and `UNIQUE (user_id, device_id)`. -/
def EndpointKeys (a b : PushEndpoint c) : Prop :=
  a.id ≠ b.id ∧ ¬ (a.userId = b.userId ∧ a.deviceId = b.deviceId)

instance : DecidableRel (EndpointKeys c) := fun a b =>
  inferInstanceAs (Decidable (a.id ≠ b.id ∧ ¬ (a.userId = b.userId ∧ a.deviceId = b.deviceId)))

abbrev EndpointTable := Table (PushEndpoint c) (EndpointKeys c)

variable {c}

/-- The row is that of a device. -/
def PushEndpoint.isFor (user : Uuid) (device : String) (row : PushEndpoint c) : Bool :=
  row.userId == user && row.deviceId == device

/-- `register_push_endpoint` (notifications/mod.rs:430-455), with the id that a new row gets;
    `none` is a constraint violation. -/
def registerPushEndpoint (t : EndpointTable c) (user : Uuid) (device channel : String)
    (ciphertext : c.Blob) (platform : String) (id : Uuid) : Option (EndpointTable c) :=
  if t.rows.any (·.isFor user device) = true then
    t.update (·.isFor user device) fun row =>
      { row with endpointCiphertext := ciphertext, platform := platform }
  else t.insert ⟨id, user, device, channel, ciphertext, platform⟩

/-- `delete_push_endpoint` (notifications/mod.rs:421-429). -/
def deletePushEndpoint (t : EndpointTable c) (user id : Uuid) : EndpointTable c :=
  t.delete fun row => row.id == id && row.userId == user

/-- `PushEndpointBody` (app.rs:1149-1155). -/
structure PushEndpointBody where
  deviceId : String
  channel : String
  platform : String
  subscription : SubscriptionWire
  deriving DecidableEq, Repr

/-- The channels there are. -/
def channels : List String := ["web_push", "fcm", "wns"]

/-- `me_push_endpoint_register` (app.rs:1168-1194), with the nonce and the id that are drawn;
    `dbError` is a failure of the statement. -/
def mePushEndpointRegister (t : EndpointTable c) (auth : AuthPrincipal) (body : PushEndpointBody)
    (nonce : c.Nonce) (id : Uuid) (dbError : Bool) : Except ApiError (EndpointTable c) :=
  if auth.isRoot = true then .error .permissionDenied
  else if body.channel ∉ channels then .error (.validation "channel must be web_push|fcm|wns")
  else
    match c.encrypt nonce (c.toVec body.subscription) with
    | .error e => .error e
    | .ok ct =>
      match registerPushEndpoint t auth.sub body.deviceId body.channel ct body.platform id with
      | some t' => if dbError = true then .error .internal else .ok t'
      | none => .error .internal

/-- `me_push_endpoint_delete` (app.rs:1206-1217). -/
def mePushEndpointDelete (t : EndpointTable c) (auth : AuthPrincipal) (id : Uuid) (dbError : Bool) :
    Except ApiError (EndpointTable c) :=
  if auth.isRoot = true then .error .permissionDenied
  else if dbError = true then .error .internal
  else .ok (deletePushEndpoint t auth.sub id)

/-- `decrypt_subscription` (push.rs:331-344), of the text that was sealed. -/
def decodeSubscription (c : Sealing) (wire : SubscriptionWire) :
    Option (String × PushSubscription) := do
  let p256dh ← c.decode64 wire.p256dh
  let auth ← c.decode64 wire.auth
  let sub ← decryptSubscription p256dh auth
  return (wire.endpoint, sub)

/-- The text that was sealed. -/
def unsealed (blob : c.Blob) : Option SubscriptionWire := (c.decrypt blob).bind c.fromSlice

/-- A call of an adapter: the endpoint, the channel and the subscription. -/
structure Attempt where
  endpoint : Uuid
  channel : String
  url : String
  subscription : PushSubscription

/-- A channel of an app. -/
def isApp (channel : String) : Bool := channel == "fcm" || channel == "wns"

/-- `app_push_present` (push.rs:226-230). -/
def appPushPresent (endpoints : List (PushEndpoint c)) : Bool := endpoints.any (isApp ·.channel)

/-- The call that is made for an endpoint (push.rs:297-320). -/
def attemptOf (preferAppPush : Bool) (row : PushEndpoint c) : Option Attempt :=
  if preferAppPush = true ∧ row.channel = "web_push" then none
  else
    ((unsealed row.endpointCiphertext).bind (decodeSubscription c)).bind fun sub =>
      if row.channel ∈ channels then some ⟨row.id, row.channel, sub.1, sub.2⟩ else none

/-- The calls that `PushService::notify` makes (push.rs:275-329). -/
def notifyAttempts (t : EndpointTable c) (user : Uuid) : List Attempt :=
  let endpoints := t.rows.filter (·.userId == user)
  endpoints.filterMap (attemptOf (appPushPresent endpoints))

/-! ## What a user has done -/

/-- A call of one of the two endpoints. -/
inductive Call (c : Sealing) where
  | register (auth : AuthPrincipal) (body : PushEndpointBody) (nonce : c.Nonce) (id : Uuid)
    (dbError : Bool)
  | delete (auth : AuthPrincipal) (id : Uuid) (dbError : Bool)

/-- What is registered for a device. -/
structure Registration where
  channel : String
  subscription : SubscriptionWire
  deriving DecidableEq, Repr

/-- A call that succeeded. -/
inductive Done where
  | registered (user : Uuid) (device : String) (registration : Registration)
  | deleted (user : Uuid) (device : String)
  deriving DecidableEq, Repr

def Call.exec (t : EndpointTable c) : Call c → Except ApiError (EndpointTable c)
  | .register auth body nonce id dbError => mePushEndpointRegister t auth body nonce id dbError
  | .delete auth id dbError => mePushEndpointDelete t auth id dbError

/-- What a call does that succeeds: a deletion names a device by its endpoint. -/
def Call.done (t : EndpointTable c) : Call c → List Done
  | .register auth body _ _ _ =>
    [.registered auth.sub body.deviceId ⟨body.channel, body.subscription⟩]
  | .delete auth id _ =>
    (t.rows.filter fun row => row.id == id && row.userId == auth.sub).map fun row =>
      .deleted auth.sub row.deviceId

/-- The table and the log after a call. -/
def step (s : EndpointTable c × List Done) (call : Call c) : EndpointTable c × List Done :=
  match call.exec s.1 with
  | .ok t => (t, s.2 ++ call.done s.1)
  | .error _ => s

/-- The table and the log after some calls, from a table without rows. -/
def run (calls : List (Call c)) : EndpointTable c × List Done := calls.foldl step (.empty, [])

/-- What an entry of the log does to the registrations of a device. -/
def Done.add (user : Uuid) (device : String) (registrations : List Registration) :
    Done → List Registration
  | .registered u d r => if u = user ∧ d = device then registrations ++ [r] else registrations
  | .deleted u d => if u = user ∧ d = device then [] else registrations

/-- The registrations of a device since it was last deleted. -/
def since (log : List Done) (user : Uuid) (device : String) : List Registration :=
  log.foldl (Done.add user device) []

/-! ## What the rows hold -/

variable {t t' : EndpointTable c} {log : List Done} {user u : Uuid} {device d : String}

theorem PushEndpoint.isFor_iff {row : PushEndpoint c} :
    row.isFor user device = true ↔ row.userId = user ∧ row.deviceId = device := by
  simp [isFor]

/-- A device has one row. -/
theorem eq_of_isFor {a b : PushEndpoint c} (ha : a ∈ t) (hb : b ∈ t)
    (hfor : a.isFor user device = true) (hfor' : b.isFor user device = true) : a = b := by
  rw [PushEndpoint.isFor_iff] at hfor hfor'
  rcases t.eq_or_compat ha hb with h | h | h
  · exact h
  · exact absurd ⟨hfor.1.trans hfor'.1.symm, hfor.2.trans hfor'.2.symm⟩ h.2
  · exact absurd ⟨hfor'.1.trans hfor.1.symm, hfor'.2.trans hfor.2.symm⟩ h.2

theorem since_append (log entries : List Done) (user : Uuid) (device : String) :
    since (log ++ entries) user device =
      entries.foldl (Done.add user device) (since log user device) := by
  rw [since, List.foldl_append, since]

theorem since_registered (log : List Done) (u : Uuid) (d : String) (r : Registration) :
    since (log ++ [.registered u d r]) user device =
      if u = user ∧ d = device then since log user device ++ [r] else since log user device := by
  rw [since_append]
  rfl

/-- The deletion of some endpoints of a user. -/
theorem since_deleted (log : List Done) (u : Uuid) (rows : List (PushEndpoint c)) :
    since (log ++ rows.map fun row => .deleted u row.deviceId) user device =
      if u = user ∧ ∃ row ∈ rows, row.deviceId = device then [] else since log user device := by
  rw [since_append]
  generalize since log user device = registrations
  induction rows generalizing registrations with
  | nil => simp
  | cons row rows ih =>
    rw [List.map_cons, List.foldl_cons, ih]
    simp only [Done.add]
    by_cases hu : u = user
    · by_cases hd : row.deviceId = device
      · simp [hu, hd]
      · simp [hu, hd]
    · simp [hu]

/-- Each row has the channel of the first registration since the last deletion, and the subscription
    of the last. -/
structure Recorded (t : EndpointTable c) (log : List Done) : Prop where
  row : ∀ row ∈ t, ∃ first last,
    (since log row.userId row.deviceId).head? = some first ∧
    (since log row.userId row.deviceId).getLast? = some last ∧
    row.channel = first.channel ∧ unsealed row.endpointCiphertext = some last.subscription
  live : ∀ user device, since log user device ≠ [] → ∃ row ∈ t, row.isFor user device = true
  channel : ∀ user device, ∀ r ∈ since log user device, r.channel ∈ channels

theorem recorded_register {channel platform : String} {ct : c.Blob} {id : Uuid}
    {wire : SubscriptionWire} (h : Recorded t log) (hchannel : channel ∈ channels)
    (hct : unsealed ct = some wire)
    (hstep : registerPushEndpoint t u d channel ct platform id = some t') :
    Recorded t' (log ++ [.registered u d ⟨channel, wire⟩]) := by
  have hchannels : ∀ user device,
      ∀ r ∈ since (log ++ [.registered u d ⟨channel, wire⟩]) user device, r.channel ∈ channels := by
    intro user device r hr
    rw [since_registered] at hr
    split_ifs at hr
    · rcases List.mem_append.mp hr with hr | hr
      · exact h.channel user device r hr
      · rw [List.mem_singleton.mp hr]
        exact hchannel
    · exact h.channel user device r hr
  unfold registerPushEndpoint at hstep
  split_ifs at hstep with hany
  · -- the row of the device gets the new text
    obtain ⟨row₀, hmem₀, hfor₀⟩ := List.any_eq_true.mp hany
    obtain ⟨first₀, last₀, hfirst₀, -, -, -⟩ := h.row row₀ hmem₀
    refine ⟨fun row hrow => ?_, fun user device hlive => ?_, hchannels⟩
    · obtain ⟨r, hr, rfl⟩ := (Table.mem_update hstep).mp hrow
      obtain ⟨first, last, hfirst, hlast, hrowChannel, hrowText⟩ := h.row r hr
      by_cases hfor : r.isFor u d = true
      · have hkey := PushEndpoint.isFor_iff.mp hfor
        refine ⟨first, ⟨channel, wire⟩, ?_, ?_, ?_, ?_⟩
        · simp [hfor, since_registered, hkey.1, hkey.2, hkey.1 ▸ hkey.2 ▸ hfirst]
        · simp [hfor, since_registered, hkey.1, hkey.2]
        · simp [hfor, hrowChannel]
        · simp [hfor, hct]
      · have hother : ¬ (u = r.userId ∧ d = r.deviceId) := fun heq =>
          hfor (PushEndpoint.isFor_iff.mpr ⟨heq.1.symm, heq.2.symm⟩)
        refine ⟨first, last, ?_, ?_, ?_, ?_⟩
        · simp [hfor, since_registered, hother, hfirst]
        · simp [hfor, since_registered, hother, hlast]
        · simp [hfor, hrowChannel]
        · simp [hfor, hrowText]
    · have hrow : ∃ row ∈ t, row.isFor user device = true := by
        rw [since_registered] at hlive
        split_ifs at hlive with hkey
        · exact ⟨row₀, hmem₀, hkey.1 ▸ hkey.2 ▸ hfor₀⟩
        · exact h.live user device hlive
      obtain ⟨row, hmem, hfor⟩ := hrow
      refine ⟨_, (Table.mem_update hstep).mpr ⟨row, hmem, rfl⟩, ?_⟩
      split_ifs
      · exact hfor
      · exact hfor
  · -- the device gets a row
    have hnone : ∀ row ∈ t, ¬ (u = row.userId ∧ d = row.deviceId) := fun row hrow heq =>
      hany (List.any_eq_true.mpr ⟨row, hrow, PushEndpoint.isFor_iff.mpr ⟨heq.1.symm, heq.2.symm⟩⟩)
    have hempty : since log u d = [] := by
      by_contra hlive
      obtain ⟨row, hrow, hfor⟩ := h.live u d hlive
      exact hnone row hrow ⟨(PushEndpoint.isFor_iff.mp hfor).1.symm,
        (PushEndpoint.isFor_iff.mp hfor).2.symm⟩
    refine ⟨fun row hrow => ?_, fun user device hlive => ?_, hchannels⟩
    · rcases (Table.mem_insert hstep).mp hrow with hrow | rfl
      · rw [since_registered, if_neg (hnone row hrow)]
        exact h.row row hrow
      · refine ⟨⟨channel, wire⟩, ⟨channel, wire⟩, ?_, ?_, rfl, hct⟩
        · rw [since_registered, if_pos ⟨rfl, rfl⟩, hempty]
          rfl
        · rw [since_registered, if_pos ⟨rfl, rfl⟩, hempty]
          rfl
    · rw [since_registered] at hlive
      split_ifs at hlive with hkey
      · exact ⟨_, (Table.mem_insert hstep).mpr (.inr rfl), PushEndpoint.isFor_iff.mpr hkey⟩
      · obtain ⟨row, hrow, hfor⟩ := h.live user device hlive
        exact ⟨row, (Table.mem_insert hstep).mpr (.inl hrow), hfor⟩

theorem recorded_delete {id : Uuid} (h : Recorded t log) :
    Recorded (deletePushEndpoint t u id)
      (log ++ (t.rows.filter fun row => row.id == id && row.userId == u).map fun row =>
        .deleted u row.deviceId) := by
  refine ⟨fun row hrow => ?_, fun user device hlive => ?_, fun user device r hr => ?_⟩
  · obtain ⟨hmem, hkept⟩ := Table.mem_delete.mp hrow
    have hother : ¬ (u = row.userId ∧
        ∃ gone ∈ t.rows.filter fun row => row.id == id && row.userId == u,
          gone.deviceId = row.deviceId) := by
      rintro ⟨huser, gone, hgone, hdevice⟩
      obtain ⟨hgoneMem, hgoneId⟩ := List.mem_filter.mp hgone
      rw [Bool.and_eq_true, beq_iff_eq, beq_iff_eq] at hgoneId
      have hsame : gone = row := eq_of_isFor hgoneMem hmem
        (PushEndpoint.isFor_iff.mpr ⟨hgoneId.2, hdevice⟩)
        (PushEndpoint.isFor_iff.mpr ⟨huser.symm, rfl⟩)
      rw [hsame] at hgoneId
      simp [hgoneId.1, hgoneId.2] at hkept
    rw [since_deleted, if_neg hother]
    exact h.row row hmem
  · rw [since_deleted] at hlive
    split_ifs at hlive with hgone
    · exact absurd rfl hlive
    · obtain ⟨row, hmem, hfor⟩ := h.live user device hlive
      refine ⟨row, Table.mem_delete.mpr ⟨hmem, ?_⟩, hfor⟩
      obtain ⟨huser, hdevice⟩ := PushEndpoint.isFor_iff.mp hfor
      by_contra hdeleted
      rw [Bool.not_eq_false] at hdeleted
      have huser' := hdeleted
      rw [Bool.and_eq_true, beq_iff_eq, beq_iff_eq] at huser'
      exact hgone ⟨huser'.2.symm.trans huser, row, List.mem_filter.mpr ⟨hmem, hdeleted⟩, hdevice⟩
  · rw [since_deleted] at hr
    split_ifs at hr
    · exact absurd hr List.not_mem_nil
    · exact h.channel user device r hr

theorem recorded_step {s : EndpointTable c × List Done} (h : Recorded s.1 s.2) (call : Call c) :
    Recorded (step s call).1 (step s call).2 := by
  unfold step
  cases hexec : call.exec s.1 with
  | error e => exact h
  | ok t' =>
    cases call with
    | register auth body nonce id dbError =>
      simp only [Call.exec, mePushEndpointRegister] at hexec
      rw [ite_eq_iff] at hexec
      rcases hexec with ⟨-, hroot⟩ | ⟨-, hexec⟩
      · exact absurd hroot nofun
      rw [ite_eq_iff] at hexec
      rcases hexec with ⟨-, hbad⟩ | ⟨hchannel, hexec⟩
      · exact absurd hbad nofun
      cases hct : c.encrypt nonce (c.toVec body.subscription) with
      | error e =>
        rw [hct] at hexec
        cases hexec
      | ok ct =>
        cases hrow : registerPushEndpoint s.1 auth.sub body.deviceId body.channel ct
            body.platform id with
        | none => simp [hct, hrow] at hexec
        | some t =>
          simp only [hct, hrow] at hexec
          split_ifs at hexec
          obtain rfl := Except.ok.inj hexec
          have htext : unsealed ct = some body.subscription := by
            rw [unsealed, c.decrypt_encrypt hct, Option.bind_some, c.fromSlice_toVec]
          exact recorded_register h (not_not.mp hchannel) htext hrow
    | delete auth id dbError =>
      simp only [Call.exec, mePushEndpointDelete] at hexec
      split_ifs at hexec
      obtain rfl := Except.ok.inj hexec
      exact recorded_delete h

/-- What the rows hold after any calls. -/
theorem run_recorded (calls : List (Call c)) : Recorded (run calls).1 (run calls).2 := by
  induction calls using List.reverseRecOn with
  | nil => exact ⟨nofun, fun _ _ h => absurd rfl h, nofun⟩
  | append_singleton calls call ih =>
    rw [run, List.foldl_append]
    exact recorded_step ih call

/-! ## Who is sent to -/

/-- The calls for a device. -/
def attemptsOn (t : EndpointTable c) (user : Uuid) (device : String) : List Attempt :=
  (notifyAttempts t user).filter fun a =>
    t.rows.any fun row => row.id == a.endpoint && row.isFor user device

theorem filter_eq_singleton {α : Type} {p : α → Bool} {l : List α} {x : α}
    (hl : l.Pairwise fun a b => ¬ (p a = true ∧ p b = true)) (hx : x ∈ l) (hp : p x = true) :
    l.filter p = [x] := by
  induction l with
  | nil => exact absurd hx List.not_mem_nil
  | cons y l ih =>
    rw [List.pairwise_cons] at hl
    by_cases hy : p y = true
    · have hnone : ∀ z ∈ l, ¬ p z = true := fun z hz hpz => hl.1 z hz ⟨hy, hpz⟩
      have hxy : x = y := (List.mem_cons.mp hx).resolve_right fun hx => hnone x hx hp
      rw [List.filter_cons_of_pos hy, List.filter_eq_nil_iff.mpr hnone, hxy]
    · have hxy : x ≠ y := fun h => hy (h ▸ hp)
      rw [List.filter_cons_of_neg hy]
      exact ih hl.2 ((List.mem_cons.mp hx).resolve_left hxy)

theorem attemptOf_endpoint {prefer : Bool} {row : PushEndpoint c} {a : Attempt}
    (h : attemptOf prefer row = some a) : a.endpoint = row.id := by
  unfold attemptOf at h
  by_cases hskip : prefer = true ∧ row.channel = "web_push"
  · simp [hskip] at h
  · rw [if_neg hskip] at h
    obtain ⟨sub, -, hsub⟩ := Option.bind_eq_some_iff.mp h
    by_cases hchannel : row.channel ∈ channels
    · rw [if_pos hchannel] at hsub
      rw [← Option.some.inj hsub]
    · simp [hchannel] at hsub

/-- An endpoint is that of a device by its id. -/
theorem any_endpoint {row : PushEndpoint c} (hrow : row ∈ t) :
    (t.rows.any fun r => r.id == row.id && r.isFor user device) = row.isFor user device := by
  by_cases hfor : row.isFor user device = true
  · rw [hfor, List.any_eq_true]
    exact ⟨row, hrow, by simp [hfor]⟩
  · rw [Bool.not_eq_true] at hfor
    rw [hfor, List.any_eq_false]
    intro r hr h
    rw [Bool.and_eq_true, beq_iff_eq] at h
    rcases t.eq_or_compat hr hrow with heq | hcompat | hcompat
    · rw [heq, hfor] at h
      exact absurd h.2 nofun
    · exact hcompat.1 h.1
    · exact hcompat.1 h.1.symm

/-- The calls for a device are those for its rows. -/
theorem attemptsOn_eq_filterMap :
    attemptsOn t user device =
      (t.rows.filter (·.isFor user device)).filterMap
        (attemptOf (appPushPresent (t.rows.filter (·.userId == user)))) := by
  simp only [attemptsOn, notifyAttempts]
  generalize appPushPresent (t.rows.filter (·.userId == user)) = prefer
  rw [List.filter_filterMap, List.filterMap_filter, List.filterMap_filter]
  refine List.filterMap_congr fun row hrow => ?_
  cases ha : attemptOf prefer row with
  | none => simp
  | some a =>
    rw [Option.filter_some, attemptOf_endpoint ha, any_endpoint hrow]
    by_cases huser : row.userId = user
    · simp [huser]
    · simp [PushEndpoint.isFor, huser]

/-- A device without a row is not sent to. -/
theorem attemptsOn_eq_nil (h : ∀ row ∈ t, ¬ row.isFor user device = true) :
    attemptsOn t user device = [] := by
  rw [attemptsOn_eq_filterMap, List.filter_eq_nil_iff.mpr h, List.filterMap_nil]

/-- The calls for a device are the call for its row. -/
theorem attemptsOn_eq {row : PushEndpoint c} (hrow : row ∈ t)
    (hfor : row.isFor user device = true) :
    attemptsOn t user device =
      (attemptOf (appPushPresent (t.rows.filter (·.userId == user))) row).toList := by
  have hrows : t.rows.filter (·.isFor user device) = [row] := by
    refine filter_eq_singleton (t.wf.imp fun {a b} hcompat hboth => hcompat.2 ?_) hrow hfor
    rw [PushEndpoint.isFor_iff, PushEndpoint.isFor_iff] at hboth
    exact ⟨hboth.1.1.trans hboth.2.1.symm, hboth.1.2.trans hboth.2.2.symm⟩
  rw [attemptsOn_eq_filterMap, hrows]
  cases h : attemptOf (appPushPresent (t.rows.filter (·.userId == user))) row with
  | none => rw [List.filterMap_cons_none h, List.filterMap_nil, Option.toList_none]
  | some a => rw [List.filterMap_cons_some h, List.filterMap_nil, Option.toList_some]

/-- Who has an app, by the first registrations. -/
theorem appPushPresent_iff (h : Recorded t log) :
    appPushPresent (t.rows.filter (·.userId == user)) = true ↔
      ∃ device first, (since log user device).head? = some first ∧ isApp first.channel = true := by
  rw [appPushPresent, List.any_eq_true]
  constructor
  · rintro ⟨row, hrow, happ⟩
    obtain ⟨hmem, huser⟩ := List.mem_filter.mp hrow
    obtain ⟨first, last, hfirst, -, hchannel, -⟩ := h.row row hmem
    rw [beq_iff_eq] at huser
    exact ⟨row.deviceId, first, huser ▸ hfirst, hchannel ▸ happ⟩
  · rintro ⟨device, first, hfirst, happ⟩
    have hlive : since log user device ≠ [] := by
      intro hnil
      rw [hnil] at hfirst
      cases hfirst
    obtain ⟨row, hmem, hfor⟩ := h.live user device hlive
    obtain ⟨huser, hdevice⟩ := PushEndpoint.isFor_iff.mp hfor
    obtain ⟨first', last, hfirst', -, hchannel, -⟩ := h.row row hmem
    rw [huser, hdevice, hfirst] at hfirst'
    refine ⟨row, List.mem_filter.mpr ⟨hmem, beq_iff_eq.mpr huser⟩, ?_⟩
    rw [hchannel, ← Option.some.inj hfirst']
    exact happ

/-- The call for a device has the channel of its first registration and the subscription of its
    last. -/
theorem attemptsOn_recorded {first last : Registration} (h : Recorded t log)
    (hfirst : (since log user device).head? = some first)
    (hlast : (since log user device).getLast? = some last) :
    ∃ id, attemptsOn t user device =
      (if appPushPresent (t.rows.filter (·.userId == user)) = true ∧ first.channel = "web_push"
        then none
        else (decodeSubscription c last.subscription).map fun sub =>
          (⟨id, first.channel, sub.1, sub.2⟩ : Attempt)).toList := by
  have hmemFirst : first ∈ since log user device := List.mem_of_head? hfirst
  obtain ⟨row, hrow, hfor⟩ := h.live user device (List.ne_nil_of_mem hmemFirst)
  obtain ⟨first', last', hfirst', hlast', hchannel, htext⟩ := h.row row hrow
  obtain ⟨huser, hdevice⟩ := PushEndpoint.isFor_iff.mp hfor
  rw [huser, hdevice] at hfirst' hlast'
  obtain rfl := Option.some.inj (hfirst.symm.trans hfirst')
  obtain rfl := Option.some.inj (hlast.symm.trans hlast')
  refine ⟨row.id, ?_⟩
  rw [attemptsOn_eq hrow hfor, attemptOf, hchannel, htext]
  split_ifs with hskip hknown
  · rfl
  · rw [Option.bind_some]
    cases decodeSubscription c last.subscription with
    | none => rfl
    | some sub => rfl
  · exact absurd (h.channel user device first hmemFirst) hknown

/-! ## When the last write wins -/

/-- Some device was last registered for an app. -/
def AppLast (log : List Done) (user : Uuid) : Prop :=
  ∃ device last, (since log user device).getLast? = some last ∧ isApp last.channel = true

/-- The calls are one, by a registration. -/
def SentBy (c : Sealing) (attempts : List Attempt) (r : Registration) : Prop :=
  ∃ a, attempts = [a] ∧ a.channel = r.channel ∧
    decodeSubscription c r.subscription = some (a.url, a.subscription)

/-- `notify` sends by the last registrations, and leaves `web_push` out if there is an app. -/
structure LastWriteWins (t : EndpointTable c) (log : List Done) (user : Uuid) : Prop where
  sent : ∀ device last, (since log user device).getLast? = some last →
    ¬ (last.channel = "web_push" ∧ AppLast log user) → SentBy c (attemptsOn t user device) last
  skipped : ∀ device last, (since log user device).getLast? = some last →
    last.channel = "web_push" ∧ AppLast log user → attemptsOn t user device = []
  deleted : ∀ device, since log user device = [] → attemptsOn t user device = []
  only : ∀ a ∈ notifyAttempts t user, ∃ device, a ∈ attemptsOn t user device

/-- Since its last deletion, the channel of a device is the one of its first registration, and its
    last subscription can be decoded; a device to leave out was `web_push` from the first, or cannot
    be decoded. -/
def FirstIsLast (c : Sealing) (log : List Done) (user : Uuid) : Prop :=
  ∀ device first last,
    (since log user device).head? = some first → (since log user device).getLast? = some last →
    (¬ (last.channel = "web_push" ∧ AppLast log user) →
      first.channel = last.channel ∧ decodeSubscription c last.subscription ≠ none) ∧
    (last.channel = "web_push" ∧ AppLast log user →
      first.channel = "web_push" ∨ decodeSubscription c last.subscription = none)

variable {first last : Registration}

theorem head?_of_getLast? {log : List Done}
    (hlast : (since log user device).getLast? = some last) :
    ∃ first, (since log user device).head? = some first := by
  cases hsince : since log user device with
  | nil =>
    rw [hsince] at hlast
    cases hlast
  | cons first rest => exact ⟨first, rfl⟩

/-- A device that was last registered for an app has been so from the first. -/
theorem FirstIsLast.present (h : Recorded t log) (hsame : FirstIsLast c log user)
    (happ : AppLast log user) : appPushPresent (t.rows.filter (·.userId == user)) = true := by
  obtain ⟨device, last, hlast, happ⟩ := happ
  obtain ⟨first, hfirst⟩ := head?_of_getLast? hlast
  refine (appPushPresent_iff h).mpr ⟨device, first, hfirst, ?_⟩
  have hweb : last.channel ≠ "web_push" := by
    intro hweb
    rw [hweb] at happ
    exact absurd happ (by decide)
  rw [((hsame device first last hfirst hlast).1 fun hskip => hweb hskip.1).1]
  exact happ

/-- Who has an app by the first registration has one by the last. -/
theorem FirstIsLast.appLast (h : Recorded t log) (hsame : FirstIsLast c log user)
    (hpresent : appPushPresent (t.rows.filter (·.userId == user)) = true) : AppLast log user := by
  obtain ⟨device, first, hfirst, happ⟩ := (appPushPresent_iff h).mp hpresent
  have hne : since log user device ≠ [] := List.ne_nil_of_mem (List.mem_of_head? hfirst)
  have hlast := List.getLast?_eq_some_getLast hne
  by_contra hnone
  have hchannel := ((hsame device first _ hfirst hlast).1 fun hskip => hnone hskip.2).1
  exact hnone ⟨device, _, hlast, hchannel ▸ happ⟩

/-- The last registration of each device wins exactly if it has the channel of the first. -/
theorem last_write_wins_iff (calls : List (Call c)) (user : Uuid) :
    LastWriteWins (run calls).1 (run calls).2 user ↔ FirstIsLast c (run calls).2 user := by
  have h := run_recorded calls
  generalize (run calls).1 = t at h ⊢
  generalize (run calls).2 = log at h ⊢
  constructor
  · intro hwins device first last hfirst hlast
    obtain ⟨id, hattempts⟩ := attemptsOn_recorded h hfirst hlast
    constructor
    · intro hskip
      obtain ⟨a, ha, hchannel, hdecode⟩ := hwins.sent device last hlast hskip
      rw [ha, hdecode] at hattempts
      split_ifs at hattempts
      · cases hattempts
      · have hcall : a = _ := (List.cons.inj hattempts).1
        refine ⟨?_, by simp [hdecode]⟩
        rw [← hchannel, hcall]
    · intro hskip
      rw [hwins.skipped device last hlast hskip] at hattempts
      split_ifs at hattempts with hleft
      · exact .inl hleft.2
      · refine .inr ?_
        cases hdecode : decodeSubscription c last.subscription with
        | none => rfl
        | some sub => simp [hdecode] at hattempts
  · intro hsame
    refine ⟨fun device last hlast hskip => ?_, fun device last hlast hskip => ?_,
      fun device hnone => attemptsOn_eq_nil fun row hrow hfor => ?_, fun a ha => ?_⟩
    · obtain ⟨first, hfirst⟩ := head?_of_getLast? hlast
      obtain ⟨id, hattempts⟩ := attemptsOn_recorded h hfirst hlast
      obtain ⟨hchannel, hdecode⟩ := (hsame device first last hfirst hlast).1 hskip
      have hleft : ¬ (appPushPresent (t.rows.filter (·.userId == user)) = true ∧
          first.channel = "web_push") := fun hleft =>
        hskip ⟨hchannel.symm.trans hleft.2, hsame.appLast h hleft.1⟩
      obtain ⟨sub, hsub⟩ := Option.ne_none_iff_exists'.mp hdecode
      rw [if_neg hleft, hsub] at hattempts
      exact ⟨_, hattempts, hchannel, hsub⟩
    · obtain ⟨first, hfirst⟩ := head?_of_getLast? hlast
      obtain ⟨id, hattempts⟩ := attemptsOn_recorded h hfirst hlast
      rw [hattempts]
      rcases (hsame device first last hfirst hlast).2 hskip with hweb | hdecode
      · rw [if_pos ⟨hsame.present h hskip.2, hweb⟩]
        rfl
      · rw [hdecode]
        split_ifs
        · rfl
        · rfl
    · obtain ⟨first, last, hfirst, -, -, -⟩ := h.row row hrow
      obtain ⟨huser, hdevice⟩ := PushEndpoint.isFor_iff.mp hfor
      rw [huser, hdevice, hnone] at hfirst
      cases hfirst
    · obtain ⟨row, hrow, hrowAttempt⟩ := List.mem_filterMap.mp ha
      obtain ⟨hmem, huser⟩ := List.mem_filter.mp hrow
      refine ⟨row.deviceId, List.mem_filter.mpr ⟨ha, ?_⟩⟩
      rw [attemptOf_endpoint hrowAttempt, any_endpoint hmem, PushEndpoint.isFor_iff]
      exact ⟨beq_iff_eq.mp huser, rfl⟩

/-- The six bits of a character of base64 for URLs. -/
def sextet (c : Char) : Option ℕ :=
  "ABCDEFGHIJKLMNOPQRSTUVWXYZabcdefghijklmnopqrstuvwxyz0123456789-_".toList.idxOf? c

/-- The octets of some sextets; the bits that are left over must be zero. -/
def octetsOf : List ℕ → Option (List UInt8)
  | a :: b :: c :: d :: rest =>
    (octetsOf rest).map ([.ofNat (4 * a + b / 16), .ofNat (16 * b + c / 4),
      .ofNat (64 * c + d)] ++ ·)
  | [a, b, c] =>
    if c % 4 = 0 then some [.ofNat (4 * a + b / 16), .ofNat (16 * b + c / 4)] else none
  | [a, b] => if b % 16 = 0 then some [.ofNat (4 * a + b / 16)] else none
  | [] => some []
  | [_] => none

/-- Subscriptions are kept as they are; `decode64` is `URL_SAFE_NO_PAD`. -/
def sampleSealing : Sealing where
  Plain := SubscriptionWire
  Blob := SubscriptionWire
  Nonce := Unit
  toVec wire := wire
  fromSlice := some
  encrypt _ plain := .ok plain
  decrypt := some
  decode64 text := (text.toList.mapM sextet).bind octetsOf
  fromSlice_toVec _ := rfl
  decrypt_encrypt h := congrArg some (Except.ok.inj h).symm

def sampleUser : AuthPrincipal := ⟨1, 2, .user, .panel, "r"⟩

/-- The texts are base64 of 65 and of 16 zeros. -/
def sampleWire : SubscriptionWire :=
  ⟨"https://push.example", String.ofList (List.replicate 87 'A'),
    String.ofList (List.replicate 22 'A')⟩

/-- A user registers a device for `web_push` and then for `fcm`. -/
def channelChange : List (Call sampleSealing) :=
  [.register sampleUser ⟨"tablet", "web_push", "web", sampleWire⟩ () 3 false,
    .register sampleUser ⟨"tablet", "fcm", "android", sampleWire⟩ () 4 false]

/-- It is sent to as `web_push`. -/
theorem not_last_write_wins :
    ¬ LastWriteWins (run channelChange).1 (run channelChange).2 sampleUser.sub := by
  intro hwins
  obtain ⟨a, hattempts, hchannel, -⟩ :=
    hwins.sent "tablet" ⟨"fcm", sampleWire⟩ (by decide +kernel) fun hskip =>
      absurd hskip.1 (by decide)
  have hweb : (attemptsOn (run channelChange).1 sampleUser.sub "tablet").map (·.channel) =
      ["web_push"] := by
    decide +kernel
  rw [hattempts] at hweb
  have hsent : a.channel = "web_push" := (List.cons.inj hweb).1
  rw [hsent] at hchannel
  exact absurd hchannel (by decide)

end Ppb.Notifications
