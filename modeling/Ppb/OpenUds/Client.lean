import Ppb.Common.Json
import Ppb.Common.Trace
import Ppb.Server.OpenUds

/-!
# Does every command get its own response? (`pmp/openuds/client.rs`)

`command_with_timeout` numbers the command, puts a sender under its number into the map
`pending`, writes the command and waits for the receiver. The reader of the connection takes the
sender of a response out of the map and sends the response there. The map is cleared when the
connection ends; an entry may be there before the command is written, and a connection may come
up in between.

* `Correlated.step`: what every step of a call and of the connection keeps.
* `step_forward`: no step takes a call back, so it makes four steps at most and returns once.
* `Correlated.canGoOn`: a call that has not returned is not stuck; what it does next brings it
  closer to its return.
* `commands_correlated`: all of it for whole runs.

Deviations: `subscribe` and the other messages without a response, which take the writer for a
while, are left out, and so is what the events of PMP do.
-/

namespace Ppb.OpenUds

open Trace

/-! ## The client -/

/-- `ResponseError` (pmp/openuds/types.rs:19-22). -/
structure ResponseError where
  code : String
  message : String
  deriving DecidableEq

/-- `ResponseFrame` (pmp/openuds/types.rs:8-15). -/
structure ResponseFrame where
  id : Option String
  ok : Bool
  data : Option Json
  error : Option ResponseError
  deriving DecidableEq

/-- What other packages compute, and the configured timeout: `serde_json::from_value`. -/
structure Extern where
  responseFrame : Json → Option ResponseFrame
  requestTimeoutMs : ℕ

abbrev Outcome := Except OpenUdsError Json

/-- Where a call of `command_with_timeout` stands. -/
inductive Phase where
  /-- it has its number -/
  | started
  /-- its sender is in the map -/
  | inserted
  /-- it has the writer -/
  | writing
  | waiting
  | returned (outcome : Outcome)
  deriving DecidableEq

/-- A call, with what its sender has sent. -/
structure Call where
  id : String
  command : String
  timeoutMs : Option ℕ
  phase : Phase
  response : Option ResponseFrame

/-- The connection task: `run`, `connect_once`, `reader_loop` and `set_disconnected`, which is
    called twice when a connection has ended. -/
inductive Connection where
  | connecting
  | reading
  /-- in `set_disconnected`, with so many more to come -/
  | disconnecting (more : ℕ)
  /-- the same, and the writer is gone -/
  | clearing (more : ℕ)
  | stopped
  deriving DecidableEq

/-- `OpenUdsClient`. A call is known by its place in `calls`; `holder` has the lock of the writer.
    `frames` are the responses so far, with the call each was sent to. -/
structure Client where
  nextId : UInt64
  calls : List Call
  pending : List (String × ℕ)
  writer : Bool
  holder : Option ℕ
  connection : Connection
  frames : List (ResponseFrame × Option ℕ)

def Client.start : Client := ⟨1, [], [], false, none, .connecting, []⟩

/-- A step of a call or of the connection. -/
inductive Step where
  | begin (command : String) (timeoutMs : Option ℕ)
  | insert (i : ℕ)
  | lock (i : ℕ)
  | written (i : ℕ) (error : Option String)
  | receive (i : ℕ)
  | timeout (i : ℕ)
  | frame (value : Json)
  | endOfStream
  | connectFailed
  | install
  | dropWriter
  | clearPending
  | stop

/-- What a response means for the caller (pmp/openuds/client.rs:326-339). -/
def outcomeOf (command : String) (frame : ResponseFrame) : Outcome :=
  if frame.ok = true then .ok (frame.data.getD .null)
  else
    let err := frame.error.getD ⟨"COMMAND_ERROR", "command failed"⟩
    .error (.command command err.code err.message)

/-- The timeout of a call; `none` is no timeout. -/
def budget (x : Extern) : Option ℕ → Option ℕ
  | some 0 => none
  | some ms => some ms
  | none => some x.requestTimeoutMs

namespace Client

/-- The call `i` goes on to `phase`. -/
def setPhase (s : Client) (i : ℕ) (phase : Phase) : Client :=
  { s with calls := s.calls.modify i fun c => { c with phase := phase } }

/-- `pending.remove(&id)`. -/
def forget (s : Client) (id : String) : Client :=
  { s with pending := s.pending.filter fun e => e.1 ≠ id }

/-- `return`, with the entry removed. -/
def giveUp (s : Client) (i : ℕ) (id : String) (error : OpenUdsError) : Client :=
  (s.setPhase i (.returned (.error error))).forget id

/-- A response (pmp/openuds/client.rs:229-237). -/
def onResponse (s : Client) (frame : ResponseFrame) : Client :=
  match frame.id.bind fun id => s.pending.find? (·.1 == id) with
  | some (id, i) =>
    { s.forget id with
      calls := s.calls.modify i fun c => { c with response := some frame }
      frames := s.frames ++ [(frame, some i)] }
  | none => { s with frames := s.frames ++ [(frame, none)] }

/-- `handle_frame` (pmp/openuds/client.rs:226-256). -/
def onFrame (x : Extern) (s : Client) (value : Json) : Client :=
  if (value.get? "type").bind Json.asStr = some "response" then
    match x.responseFrame value with
    | some frame => s.onResponse frame
    | none => s
  else s

/-- The call `i`, if it stands at `phase`. -/
def callAt (s : Client) (i : ℕ) (phase : Phase) : Option Call :=
  (s.calls[i]?).filter fun c => c.phase = phase

end Client

/-- One step of `command_with_timeout` (pmp/openuds/client.rs:272-343). -/
def callStep (x : Extern) (s : Client) : Step → Option Client
  | .begin command timeoutMs => some { s with
      nextId := s.nextId + 1
      calls := s.calls ++ [⟨toString s.nextId.toNat, command, timeoutMs, .started, none⟩] }
  | .insert i => (s.callAt i .started).map fun c =>
      { (s.setPhase i .inserted).forget c.id with
        pending := (c.id, i) :: (s.forget c.id).pending }
  | .lock i => (s.callAt i .inserted).bind fun c =>
      if s.holder.isSome = true then none
      else if s.writer = true then some { s.setPhase i .writing with holder := some i }
      else some (s.giveUp i c.id (.unavailable "openuds not connected"))
  | .written i none => (s.callAt i .writing).map fun _ =>
      { s.setPhase i .waiting with holder := none }
  | .written i (some text) => (s.callAt i .writing).map fun c =>
      { s.giveUp i c.id (.io text) with holder := none }
  | .receive i => (s.callAt i .waiting).bind fun c =>
      match c.response with
      | some frame => some (s.setPhase i (.returned (outcomeOf c.command frame)))
      | none =>
        -- the sender is dropped when its entry is
        if s.pending.any (·.2 == i) then none
        else some (s.setPhase i (.returned (.error (.unavailable "openuds connection closed"))))
  | .timeout i => (s.callAt i .waiting).bind fun c =>
      (budget x c.timeoutMs).map fun ms => s.giveUp i c.id (.timeout ms)
  | _ => none

/-- One step of the connection (pmp/openuds/client.rs:126-256). -/
def connectionStep (x : Extern) (s : Client) (l : Step) : Option Client :=
  match l, s.connection with
  | .frame value, .reading => some (s.onFrame x value)
  | .endOfStream, .reading => some { s with connection := .disconnecting 1 }
  | .connectFailed, .connecting => some { s with connection := .disconnecting 0 }
  | .install, .connecting =>
    if s.holder.isSome = true then none
    else some { s with writer := true, connection := .reading }
  | .dropWriter, .disconnecting more =>
    if s.holder.isSome = true then none
    else some { s with writer := false, connection := .clearing more }
  | .clearPending, .clearing 0 => some { s with pending := [], connection := .connecting }
  | .clearPending, .clearing (more + 1) =>
    some { s with pending := [], connection := .disconnecting more }
  | .stop, .connecting => some { s with connection := .stopped }
  | _, _ => none

/-- One step. -/
def step (x : Extern) (s : Client) (l : Step) : Option Client :=
  (callStep x s l).or (connectionStep x s l)

/-- There are fewer than `2^64` commands. -/
def Few (s : Client) : Step → Prop
  | .begin .. => s.calls.length + 1 < 2 ^ 64
  | _ => True

/-- Outcomes that only a response gives. -/
def FromResponse : Outcome → Prop
  | .ok _ => True
  | .error (.command ..) => True
  | .error _ => False

/-! ## The invariant -/

/-- The sender of the call is or was in the map, and the call has not returned. -/
def Phase.Awaits : Phase → Prop
  | .inserted | .writing | .waiting => True
  | .started | .returned _ => False

/-- Entries and responses belong to the calls whose numbers they carry. -/
structure Correlated (s : Client) : Prop where
  few : s.calls.length < 2 ^ 64
  next : s.nextId.toNat = (s.calls.length + 1) % 2 ^ 64
  ids : ∀ (i : ℕ) (c : Call), s.calls[i]? = some c → c.id = toString (i + 1)
  pending : ∀ e ∈ s.pending, ∃ c : Call, s.calls[e.2]? = some c ∧ c.id = e.1 ∧ c.phase.Awaits ∧
    c.response = none
  started : ∀ (i : ℕ) (c : Call), s.calls[i]? = some c → c.phase = .started → c.response = none
  frames : ∀ frame i, (frame, some i) ∈ s.frames → ∃ c : Call, s.calls[i]? = some c ∧
    frame.id = some c.id ∧ c.response = some frame
  responses : ∀ (i : ℕ) (c : Call) frame, s.calls[i]? = some c → c.response = some frame →
    (frame, some i) ∈ s.frames
  once : (s.frames.filterMap (·.2)).Nodup
  outcomes : ∀ (i : ℕ) (c : Call) r, s.calls[i]? = some c → c.phase = .returned r → FromResponse r →
    ∃ frame, c.response = some frame ∧ outcomeOf c.command frame = r
  holder : ∀ i, s.holder = some i → ∃ c : Call, s.calls[i]? = some c ∧ c.phase = .writing

variable {x : Extern} {s s' : Client} {i j : ℕ} {c : Call}

theorem Correlated.start : Correlated .start := by
  refine ⟨by decide, by decide, ?_, nofun, ?_, nofun, ?_, List.nodup_nil, ?_, nofun⟩ <;>
    simp [Client.start]

/-- Different calls have different numbers. -/
theorem Correlated.id_inj (h : Correlated s) {c' : Call} (hi : s.calls[i]? = some c)
    (hj : s.calls[j]? = some c') (hid : c.id = c'.id) : i = j := by
  rw [h.ids i c hi, h.ids j c' hj] at hid
  have hsucc : i + 1 = j + 1 := Nat.repr_injective hid
  omega

theorem callAt_spec {phase : Phase} (h : s.callAt i phase = some c) :
    s.calls[i]? = some c ∧ c.phase = phase := by
  obtain ⟨hc, hphase⟩ := Option.filter_eq_some_iff.mp h
  exact ⟨hc, of_decide_eq_true hphase⟩

/-- A step of a single call: it goes on to another phase, and of the entries only its own is new. -/
theorem Correlated.move (h : Correlated s) (phase : Phase) (hi : s.calls[i]? = some c)
    (hphase : phase ≠ .started) (hresult : ∀ r, phase = .returned r → FromResponse r →
      ∃ frame, c.response = some frame ∧ outcomeOf c.command frame = r)
    (hnext : s'.nextId = s.nextId) (hframes : s'.frames = s.frames)
    (hcalls : s'.calls = s.calls.modify i fun c => { c with phase := phase })
    (hothers : ∀ e ∈ s'.pending, e.2 ≠ i → e ∈ s.pending)
    (hown : ∀ e ∈ s'.pending, e.2 = i → e.1 = c.id ∧ phase.Awaits ∧ c.response = none)
    (hholder : ∀ j, s'.holder = some j → j ≠ i ∧ s.holder = some j ∨ j = i ∧ phase = .writing) :
    Correlated s' := by
  have hget : ∀ j, s'.calls[j]? =
      if i = j then some { c with phase := phase } else s.calls[j]? := by
    intro j
    rw [hcalls, List.getElem?_modify]
    by_cases hj : i = j
    · subst hj
      simp [hi]
    · simp [hj]
  have hself : s'.calls[i]? = some { c with phase := phase } := by rw [hget, if_pos rfl]
  have hlength : s'.calls.length = s.calls.length := by rw [hcalls, List.length_modify]
  refine ⟨hlength ▸ h.few, by rw [hnext, hlength]; exact h.next, fun j d hj => ?_, fun e he => ?_,
    fun j d hj hd => ?_, fun frame j hf => ?_, fun j d frame hj hd => ?_, hframes ▸ h.once,
    fun j d r hj hd hr => ?_, fun j hj => ?_⟩
  · rw [hget] at hj
    split_ifs at hj with hij
    · obtain rfl := Option.some.inj hj
      exact hij ▸ h.ids i c hi
    · exact h.ids j d hj
  · by_cases hij : e.2 = i
    · obtain ⟨hid, hawaits, hresponse⟩ := hown e he hij
      exact ⟨{ c with phase := phase }, by rw [hij]; exact hself, hid.symm, hawaits, hresponse⟩
    · obtain ⟨d, hd, hrest⟩ := h.pending e (hothers e he hij)
      exact ⟨d, by rw [hget, if_neg (Ne.symm hij)]; exact hd, hrest⟩
  · rw [hget] at hj
    split_ifs at hj with hij
    · obtain rfl := Option.some.inj hj
      exact absurd hd hphase
    · exact h.started j d hj hd
  · rw [hframes] at hf
    obtain ⟨d, hd, hid, hresponse⟩ := h.frames frame j hf
    by_cases hij : i = j
    · subst hij
      obtain rfl := Option.some.inj (hi.symm.trans hd)
      exact ⟨_, hself, hid, hresponse⟩
    · exact ⟨d, by rw [hget, if_neg hij]; exact hd, hid, hresponse⟩
  · rw [hframes]
    rw [hget] at hj
    split_ifs at hj with hij
    · obtain rfl := Option.some.inj hj
      exact hij ▸ h.responses i c frame hi hd
    · exact h.responses j d frame hj hd
  · rw [hget] at hj
    split_ifs at hj with hij
    · obtain rfl := Option.some.inj hj
      exact hresult r hd hr
    · exact h.outcomes j d r hj hd hr
  · rcases hholder j hj with ⟨hij, hold⟩ | ⟨rfl, hwriting⟩
    · obtain ⟨d, hd, hwriting⟩ := h.holder j hold
      exact ⟨d, by rw [hget, if_neg (Ne.symm hij)]; exact hd, hwriting⟩
    · exact ⟨_, hself, hwriting⟩

/-- An entry for a call carries its number. -/
theorem Correlated.own (h : Correlated s) (hi : s.calls[i]? = some c) {e : String × ℕ}
    (he : e ∈ s.pending) (hei : e.2 = i) : e.1 = c.id ∧ c.phase.Awaits ∧ c.response = none := by
  obtain ⟨d, hd, hid, hrest⟩ := h.pending e he
  rw [hei] at hd
  obtain rfl := Option.some.inj (hi.symm.trans hd)
  exact ⟨hid.symm, hrest⟩

theorem Correlated.holder_ne (h : Correlated s) (hi : s.calls[i]? = some c)
    (hphase : c.phase ≠ .writing) (hj : s.holder = some j) : j ≠ i := by
  rintro rfl
  obtain ⟨d, hd, hwriting⟩ := h.holder j hj
  obtain rfl := Option.some.inj (hi.symm.trans hd)
  exact hphase hwriting

/-! ## The steps of a call -/

theorem Correlated.insert (h : Correlated s) (hi : s.calls[i]? = some c)
    (hphase : c.phase = .started) : Correlated { (s.setPhase i .inserted).forget c.id with
      pending := (c.id, i) :: (s.forget c.id).pending } := by
  refine h.move .inserted hi (by decide) nofun rfl rfl rfl (fun e he hne => ?_) (fun e he hei => ?_)
    (fun j hj => .inl ⟨h.holder_ne hi (by rw [hphase]; decide) hj, hj⟩)
  · rcases List.mem_cons.mp he with rfl | he
    · exact absurd rfl hne
    · exact List.mem_of_mem_filter he
  · rcases List.mem_cons.mp he with rfl | he
    · exact ⟨rfl, trivial, h.started i c hi hphase⟩
    · obtain ⟨-, hawaits, -⟩ := h.own hi (List.mem_of_mem_filter he) hei
      rw [hphase] at hawaits
      exact hawaits.elim

/-- The phase changes, and no entry. -/
theorem Correlated.goOn (h : Correlated s) (phase : Phase) (hi : s.calls[i]? = some c)
    (hawaits : phase.Awaits) {holder : Option ℕ} (hholder : ∀ j, holder = some j →
      j ≠ i ∧ s.holder = some j ∨ j = i ∧ phase = .writing) :
    Correlated { s.setPhase i phase with holder := holder } := by
  refine h.move phase hi ?_ ?_ rfl rfl rfl (fun e he _ => he) (fun e he hei => ?_) hholder
  · rintro rfl
    exact hawaits
  · rintro r rfl
    exact hawaits.elim
  · obtain ⟨hid, -, hresponse⟩ := h.own hi he hei
    exact ⟨hid, hawaits, hresponse⟩

/-- The call returns an error of its own, and its entry goes. -/
theorem Correlated.giveUp (h : Correlated s) (error : OpenUdsError) (hi : s.calls[i]? = some c)
    (herror : ¬ FromResponse (.error error)) {holder : Option ℕ}
    (hholder : ∀ j, holder = some j → j ≠ i ∧ s.holder = some j) :
    Correlated { s.giveUp i c.id error with holder := holder } := by
  refine h.move (.returned (.error error)) hi nofun ?_ rfl rfl rfl (fun e he _ => List.mem_of_mem_filter he)
    (fun e he hei => ?_) (fun j hj => .inl (hholder j hj))
  · rintro r hr hfrom
    obtain rfl := Phase.returned.inj hr
    exact absurd hfrom herror
  · obtain ⟨hid, -⟩ := h.own hi (List.mem_of_mem_filter he) hei
    have hne := of_decide_eq_true (List.mem_filter.mp he).2
    exact absurd hid hne

/-- The call returns what it has received. -/
theorem Correlated.return (h : Correlated s) (hi : s.calls[i]? = some c) (hphase : c.phase = .waiting)
    (r : Outcome) (hgone : ∀ e ∈ s.pending, e.2 ≠ i) (hr : FromResponse r →
      ∃ frame, c.response = some frame ∧ outcomeOf c.command frame = r) :
    Correlated (s.setPhase i (.returned r)) := by
  refine h.move (.returned r) hi nofun ?_ rfl rfl rfl (fun e he _ => he)
    (fun e he hei => absurd hei (hgone e he))
    (fun j hj => .inl ⟨h.holder_ne hi (by rw [hphase]; decide) hj, hj⟩)
  rintro _ ⟨⟩ hfrom
  exact hr hfrom

theorem Correlated.begin (h : Correlated s) (command : String) (timeoutMs : Option ℕ)
    (hfew : s.calls.length + 1 < 2 ^ 64) : Correlated { s with
      nextId := s.nextId + 1
      calls := s.calls ++ [⟨toString s.nextId.toNat, command, timeoutMs, .started, none⟩] } := by
  have hnumber : s.nextId.toNat = s.calls.length + 1 := by
    rw [h.next, Nat.mod_eq_of_lt hfew]
  -- a call of the new list is a call of the old one, or the new one
  have hget : ∀ (j : ℕ) (d : Call),
      (s.calls ++ [⟨toString s.nextId.toNat, command, timeoutMs, .started, none⟩])[j]? = some d →
      s.calls[j]? = some d ∨ j = s.calls.length ∧
        d = ⟨toString s.nextId.toNat, command, timeoutMs, .started, none⟩ := by
    intro j d hj
    rcases lt_or_ge j s.calls.length with hlt | hge
    · rw [List.getElem?_append_left hlt] at hj
      exact .inl hj
    · rw [List.getElem?_append_right hge, List.getElem?_singleton] at hj
      split_ifs at hj with hzero
      exact .inr ⟨by omega, (Option.some.inj hj).symm⟩
  have hkeep : ∀ (j : ℕ) (d : Call), s.calls[j]? = some d →
      (s.calls ++ [⟨toString s.nextId.toNat, command, timeoutMs, .started, none⟩])[j]? = some d := by
    intro j d hj
    rw [List.getElem?_append_left (List.getElem?_eq_some_iff.mp hj).1]
    exact hj
  refine ⟨?_, ?_, fun j d hj => ?_, fun e he => ?_, fun j d hj hd => ?_, fun frame j hf => ?_,
    fun j d frame hj hd => ?_, h.once, fun j d r hj hd hr => ?_, fun j hj => ?_⟩
  · rw [List.length_append]
    exact hfew
  · rw [List.length_append, UInt64.toNat_add, hnumber]
    rfl
  · rcases hget j d hj with hj | ⟨rfl, rfl⟩
    · exact h.ids j d hj
    · rw [hnumber]
  · obtain ⟨d, hd, hrest⟩ := h.pending e he
    exact ⟨d, hkeep e.2 d hd, hrest⟩
  · rcases hget j d hj with hj | ⟨-, rfl⟩
    · exact h.started j d hj hd
    · rfl
  · obtain ⟨d, hd, hrest⟩ := h.frames frame j hf
    exact ⟨d, hkeep j d hd, hrest⟩
  · rcases hget j d hj with hj | ⟨-, rfl⟩
    · exact h.responses j d frame hj hd
    · cases hd
  · rcases hget j d hj with hj | ⟨-, rfl⟩
    · exact h.outcomes j d r hj hd hr
    · cases hd
  · obtain ⟨d, hd, hwriting⟩ := h.holder j hj
    exact ⟨d, hkeep j d hd, hwriting⟩

theorem Correlated.callStep {l : Step} (h : Correlated s) (hfew : Few s l)
    (hstep : callStep x s l = some s') : Correlated s' := by
  have hnot : ∀ {i : ℕ} {c : Call}, s.calls[i]? = some c → c.phase ≠ .writing →
      ∀ j, s.holder = some j → j ≠ i ∧ s.holder = some j := fun hi hphase j hj =>
    ⟨h.holder_ne hi hphase hj, hj⟩
  cases l with
  | begin command timeoutMs =>
    obtain rfl := Option.some.inj hstep
    exact h.begin command timeoutMs hfew
  | insert i =>
    obtain ⟨c, hc, rfl⟩ := Option.map_eq_some_iff.mp hstep
    obtain ⟨hi, hphase⟩ := callAt_spec hc
    exact h.insert hi hphase
  | lock i =>
    obtain ⟨c, hc, hstep⟩ := Option.bind_eq_some_iff.mp hstep
    obtain ⟨hi, hphase⟩ := callAt_spec hc
    split_ifs at hstep
    · obtain rfl := Option.some.inj hstep
      exact h.goOn .writing hi trivial fun j hj => .inr ⟨(Option.some.inj hj).symm, rfl⟩
    · obtain rfl := Option.some.inj hstep
      exact h.giveUp (.unavailable "openuds not connected") hi not_false (hnot hi (by rw [hphase]; decide))
  | written i error =>
    cases error with
    | none =>
      obtain ⟨c, hc, rfl⟩ := Option.map_eq_some_iff.mp hstep
      exact h.goOn .waiting (callAt_spec hc).1 trivial nofun
    | some text =>
      obtain ⟨c, hc, rfl⟩ := Option.map_eq_some_iff.mp hstep
      exact h.giveUp (.io text) (callAt_spec hc).1 not_false nofun
  | receive i =>
    obtain ⟨c, hc, hstep⟩ := Option.bind_eq_some_iff.mp hstep
    obtain ⟨hi, hphase⟩ := callAt_spec hc
    split at hstep
    · rename_i frame hresponse
      obtain rfl := Option.some.inj hstep
      refine h.return hi hphase _ (fun e he hei => ?_) fun _ => ⟨frame, hresponse, rfl⟩
      have hnone := (h.own hi he hei).2.2
      rw [hresponse] at hnone
      cases hnone
    · split_ifs at hstep with hany
      obtain rfl := Option.some.inj hstep
      refine h.return hi hphase _ (fun e he hei => hany ?_) False.elim
      exact List.any_eq_true.mpr ⟨e, he, beq_iff_eq.mpr hei⟩
  | timeout i =>
    obtain ⟨c, hc, hstep⟩ := Option.bind_eq_some_iff.mp hstep
    obtain ⟨hi, hphase⟩ := callAt_spec hc
    obtain ⟨ms, -, rfl⟩ := Option.map_eq_some_iff.mp hstep
    exact h.giveUp (.timeout ms) hi not_false (hnot hi (by rw [hphase]; decide))
  | frame | endOfStream | connectFailed | install | dropWriter | clearPending | stop => cases hstep

/-! ## The steps of the connection -/

/-- A sender is found under the number of its call. -/
theorem Correlated.find (h : Correlated s) {frame : ResponseFrame} {e : String × ℕ}
    (hfind : (frame.id.bind fun id => s.pending.find? (·.1 == id)) = some e) :
    e ∈ s.pending ∧ frame.id = some e.1 ∧
      ∃ c : Call, s.calls[e.2]? = some c ∧ c.id = e.1 ∧ c.phase.Awaits ∧ c.response = none := by
  obtain ⟨id, hid, hfound⟩ := Option.bind_eq_some_iff.mp hfind
  have he := List.mem_of_find?_eq_some hfound
  have hkey : e.1 = id := by simpa using List.find?_some hfound
  exact ⟨he, by rw [hkey, hid], h.pending e he⟩

theorem Correlated.deliver (h : Correlated s) {frame : ResponseFrame} {e : String × ℕ}
    (hfind : (frame.id.bind fun id => s.pending.find? (·.1 == id)) = some e) :
    Correlated { s.forget e.1 with
      calls := s.calls.modify e.2 fun c => { c with response := some frame }
      frames := s.frames ++ [(frame, some e.2)] } := by
  obtain ⟨he, hframe, c, hi, hid, hawaits, hnone⟩ := h.find hfind
  have hget : ∀ j, (s.calls.modify e.2 fun c => { c with response := some frame })[j]? =
      if e.2 = j then some { c with response := some frame } else s.calls[j]? := by
    intro j
    rw [List.getElem?_modify]
    by_cases hj : e.2 = j
    · subst hj
      simp [hi]
    · simp [hj]
  -- no response was sent to this call before
  have hnew : ∀ frame', (frame', some e.2) ∉ s.frames := by
    intro frame' hf
    obtain ⟨d, hd, -, hresponse⟩ := h.frames frame' e.2 hf
    obtain rfl := Option.some.inj (hi.symm.trans hd)
    rw [hnone] at hresponse
    cases hresponse
  refine ⟨?_, ?_, fun j d hj => ?_, fun e' he' => ?_, fun j d hj hd => ?_, fun frame' j hf => ?_,
    fun j d frame' hj hd => ?_, ?_, fun j d r hj hd hr => ?_, fun j hj => ?_⟩
  · rw [List.length_modify]
    exact h.few
  · rw [List.length_modify]
    exact h.next
  · rw [hget] at hj
    split_ifs at hj with hij
    · obtain rfl := Option.some.inj hj
      exact hij ▸ h.ids e.2 c hi
    · exact h.ids j d hj
  · obtain ⟨d, hd, hid', hrest⟩ := h.pending e' (List.mem_of_mem_filter he')
    refine ⟨d, ?_, hid', hrest⟩
    rw [hget, if_neg, hd]
    intro hsame
    rw [← hsame, hi] at hd
    obtain rfl := Option.some.inj hd
    exact of_decide_eq_true (List.mem_filter.mp he').2 (hid'.symm.trans hid)
  · rw [hget] at hj
    split_ifs at hj with hij
    · obtain rfl := Option.some.inj hj
      have hstarted : c.phase = .started := hd
      rw [hstarted] at hawaits
      exact hawaits.elim
    · exact h.started j d hj hd
  · rcases List.mem_append.mp hf with hf | hf
    · obtain ⟨d, hd, hrest⟩ := h.frames frame' j hf
      refine ⟨d, ?_, hrest⟩
      rw [hget, if_neg, hd]
      rintro rfl
      exact hnew frame' hf
    · obtain ⟨rfl, hj⟩ := Prod.mk.inj (List.mem_singleton.mp hf)
      obtain rfl := Option.some.inj hj
      exact ⟨{ c with response := some frame' }, by rw [hget, if_pos rfl], by rw [hframe, ← hid], rfl⟩
  · rw [hget] at hj
    split_ifs at hj with hij
    · obtain rfl := Option.some.inj hj
      obtain rfl := Option.some.inj hd
      exact List.mem_append_right _ (by rw [hij]; exact List.mem_singleton_self _)
    · exact List.mem_append_left _ (h.responses j d frame' hj hd)
  · rw [List.filterMap_append, List.nodup_append]
    refine ⟨h.once, List.nodup_singleton _, fun a ha b hb => ?_⟩
    obtain rfl : b = e.2 := by simpa using hb
    rintro rfl
    obtain ⟨⟨frame', j⟩, hf, hj⟩ := List.mem_filterMap.mp ha
    obtain rfl : j = some e.2 := hj
    exact hnew frame' hf
  · rw [hget] at hj
    split_ifs at hj with hij
    · obtain rfl := Option.some.inj hj
      have hreturned : c.phase = .returned r := hd
      rw [hreturned] at hawaits
      exact hawaits.elim
    · exact h.outcomes j d r hj hd hr
  · obtain ⟨d, hd, hwriting⟩ := h.holder j hj
    by_cases hij : e.2 = j
    · subst hij
      obtain rfl := Option.some.inj (hi.symm.trans hd)
      exact ⟨{ c with response := some frame }, by rw [hget, if_pos rfl], hwriting⟩
    · exact ⟨d, by rw [hget, if_neg hij]; exact hd, hwriting⟩

theorem Correlated.onResponse (h : Correlated s) (frame : ResponseFrame) :
    Correlated (s.onResponse frame) := by
  unfold Client.onResponse
  split
  · rename_i id i hfind
    exact h.deliver hfind
  · refine ⟨h.few, h.next, h.ids, h.pending, h.started, fun frame' j hf => ?_,
      fun j d frame' hj hd => ?_, ?_, h.outcomes, h.holder⟩
    · rcases List.mem_append.mp hf with hf | hf
      · exact h.frames frame' j hf
      · cases (Prod.mk.inj (List.mem_singleton.mp hf)).2
    · exact List.mem_append_left _ (h.responses j d frame' hj hd)
    · rw [List.filterMap_append]
      simpa using h.once

theorem Correlated.onFrame (h : Correlated s) (value : Json) : Correlated (s.onFrame x value) := by
  unfold Client.onFrame
  split_ifs
  · split
    · exact h.onResponse _
    · exact h
  · exact h

/-- The connection drops entries, and leaves the calls alone. -/
theorem Correlated.drop (h : Correlated s) {pending : List (String × ℕ)}
    (hpending : ∀ e ∈ pending, e ∈ s.pending) (writer : Bool) (connection : Connection) :
    Correlated { s with pending := pending, writer := writer, connection := connection } :=
  ⟨h.few, h.next, h.ids, fun e he => h.pending e (hpending e he), h.started, h.frames, h.responses,
    h.once, h.outcomes, h.holder⟩

theorem Correlated.connectionStep {l : Step} (h : Correlated s)
    (hstep : connectionStep x s l = some s') : Correlated s' := by
  have hcleared : ∀ e ∈ ([] : List (String × ℕ)), e ∈ s.pending := nofun
  unfold OpenUds.connectionStep at hstep
  split at hstep
  · obtain rfl := Option.some.inj hstep
    exact h.onFrame _
  · obtain rfl := Option.some.inj hstep
    exact h.drop (fun _ he => he) _ _
  · obtain rfl := Option.some.inj hstep
    exact h.drop (fun _ he => he) _ _
  · split_ifs at hstep
    obtain rfl := Option.some.inj hstep
    exact h.drop (fun _ he => he) _ _
  · split_ifs at hstep
    obtain rfl := Option.some.inj hstep
    exact h.drop (fun _ he => he) _ _
  · obtain rfl := Option.some.inj hstep
    exact h.drop hcleared _ _
  · obtain rfl := Option.some.inj hstep
    exact h.drop hcleared _ _
  · obtain rfl := Option.some.inj hstep
    exact h.drop (fun _ he => he) _ _
  · cases hstep

/-- What every step keeps. -/
theorem Correlated.step {l : Step} (h : Correlated s) (hfew : Few s l)
    (hstep : step x s l = some s') : Correlated s' := by
  rcases Option.or_eq_some_iff.mp hstep with hstep | ⟨-, hstep⟩
  · exact h.callStep hfew hstep
  · exact h.connectionStep hstep

/-! ## Calls go forward, and are never stuck -/

/-- How many steps a call is away from its return, at most. -/
def Phase.left : Phase → ℕ
  | .started => 4
  | .inserted => 3
  | .writing => 2
  | .waiting => 1
  | .returned _ => 0

/-- The call `i`, which is `c`, can make the step, and is closer to its return after it. -/
def Client.Advances (x : Extern) (s : Client) (i : ℕ) (c : Call) (l : Step) : Prop :=
  ∃ s', step x s l = some s' ∧
    ∃ c' : Call, s'.calls[i]? = some c' ∧ c'.phase.left < c.phase.left

theorem getElem?_setPhase {phase : Phase} (hi : s.calls[i]? = some c) :
    (s.calls.modify i fun c => { c with phase := phase })[i]? = some { c with phase := phase } := by
  rw [List.getElem?_modify, hi]
  simp

theorem getElem?_setPhase_of_ne {phase : Phase} (hne : i ≠ j) :
    (s.calls.modify i fun c => { c with phase := phase })[j]? = s.calls[j]? := by
  rw [List.getElem?_modify]
  simp [hne]

/-- One call goes forward, and the others stay where they are. -/
theorem forward_modify {phase phase' : Phase} (hc : s.callAt i phase = some c)
    (hleft : phase'.left < phase.left) {d : Call} (hd : s.calls[j]? = some d) :
    ∃ d' : Call, (s.calls.modify i fun c => { c with phase := phase' })[j]? = some d' ∧
      (d'.phase = d.phase ∨ d'.phase.left < d.phase.left) := by
  by_cases hij : i = j
  · subst hij
    obtain ⟨hi, hphase⟩ := callAt_spec hc
    obtain rfl := Option.some.inj (hi.symm.trans hd)
    refine ⟨_, getElem?_setPhase hi, .inr ?_⟩
    rw [hphase]
    exact hleft
  · exact ⟨d, by rw [getElem?_setPhase_of_ne hij, hd], .inl rfl⟩

/-- A response changes no phase. -/
theorem onResponse_phase (frame : ResponseFrame) {d : Call} (hd : s.calls[j]? = some d) :
    ∃ d' : Call, (s.onResponse frame).calls[j]? = some d' ∧ d'.phase = d.phase := by
  unfold Client.onResponse
  split
  · rename_i id i _
    show ∃ d', (s.calls.modify i fun c => { c with response := some frame })[j]? = some d' ∧ _
    rw [List.getElem?_modify, hd]
    by_cases hij : i = j
    · exact ⟨{ d with response := some frame }, by simp [hij], rfl⟩
    · exact ⟨d, by simp [hij], rfl⟩
  · exact ⟨d, hd, rfl⟩

theorem connectionStep_calls {l : Step} (hstep : connectionStep x s l = some s') :
    s'.calls = s.calls ∨ ∃ value, s' = s.onFrame x value := by
  unfold OpenUds.connectionStep at hstep
  split at hstep
  · exact .inr ⟨_, (Option.some.inj hstep).symm⟩
  · exact .inl (by rw [← Option.some.inj hstep])
  · exact .inl (by rw [← Option.some.inj hstep])
  · split_ifs at hstep
    exact .inl (by rw [← Option.some.inj hstep])
  · split_ifs at hstep
    exact .inl (by rw [← Option.some.inj hstep])
  · exact .inl (by rw [← Option.some.inj hstep])
  · exact .inl (by rw [← Option.some.inj hstep])
  · exact .inl (by rw [← Option.some.inj hstep])
  · cases hstep

/-- No step takes a call back. -/
theorem step_forward {l : Step} (hstep : step x s l = some s') {d : Call}
    (hd : s.calls[j]? = some d) : ∃ d' : Call, s'.calls[j]? = some d' ∧
      (d'.phase = d.phase ∨ d'.phase.left < d.phase.left) := by
  rcases Option.or_eq_some_iff.mp hstep with hstep | ⟨-, hstep⟩
  · cases l with
    | begin command timeoutMs =>
      obtain rfl := Option.some.inj hstep
      refine ⟨d, ?_, .inl rfl⟩
      show (s.calls ++ _)[j]? = some d
      rw [List.getElem?_append_left (List.getElem?_eq_some_iff.mp hd).1, hd]
    | insert i =>
      obtain ⟨c, hc, rfl⟩ := Option.map_eq_some_iff.mp hstep
      exact forward_modify hc (by decide) hd
    | lock i =>
      obtain ⟨c, hc, hstep⟩ := Option.bind_eq_some_iff.mp hstep
      split_ifs at hstep <;> obtain rfl := Option.some.inj hstep
      · exact forward_modify hc (by decide) hd
      · exact forward_modify hc (by simp [Phase.left]) hd
    | written i error =>
      cases error <;> obtain ⟨c, hc, rfl⟩ := Option.map_eq_some_iff.mp hstep
      · exact forward_modify hc (by decide) hd
      · exact forward_modify hc (by simp [Phase.left]) hd
    | receive i =>
      obtain ⟨c, hc, hstep⟩ := Option.bind_eq_some_iff.mp hstep
      split at hstep
      · obtain rfl := Option.some.inj hstep
        exact forward_modify hc (by simp [Phase.left]) hd
      · split_ifs at hstep
        obtain rfl := Option.some.inj hstep
        exact forward_modify hc (by simp [Phase.left]) hd
    | timeout i =>
      obtain ⟨c, hc, hstep⟩ := Option.bind_eq_some_iff.mp hstep
      obtain ⟨ms, -, rfl⟩ := Option.map_eq_some_iff.mp hstep
      exact forward_modify hc (by simp [Phase.left]) hd
    | frame | endOfStream | connectFailed | install | dropWriter | clearPending | stop => cases hstep
  · rcases connectionStep_calls hstep with hcalls | ⟨value, rfl⟩
    · exact ⟨d, by rw [hcalls, hd], .inl rfl⟩
    · unfold Client.onFrame
      split_ifs
      · split
        · obtain ⟨d', hd', hphase⟩ := onResponse_phase _ hd
          exact ⟨d', hd', .inl hphase⟩
        · exact ⟨d, hd, .inl rfl⟩
      · exact ⟨d, hd, .inl rfl⟩

/-- A call returns once. -/
theorem outcome_stays {l : Step} (hstep : step x s l = some s') {d : Call} {r : Outcome}
    (hd : s.calls[j]? = some d) (hr : d.phase = .returned r) :
    ∃ d' : Call, s'.calls[j]? = some d' ∧ d'.phase = .returned r := by
  obtain ⟨d', hd', hphase | hleft⟩ := step_forward hstep hd
  · exact ⟨d', hd', hphase.trans hr⟩
  · rw [hr] at hleft
    exact absurd hleft (Nat.not_lt_zero _)

/-- What brings a call that has not returned closer to its return. -/
def Client.CanGoOn (x : Extern) (s : Client) (i : ℕ) (c : Call) : Prop :=
  match c.phase with
  | .started => s.Advances x i c (.insert i)
  -- it takes the writer, or finds none, once the call that has the lock has given it back
  | .inserted => (s.holder = none → s.Advances x i c (.lock i)) ∧
      ∀ j, s.holder = some j → ∀ error, ∃ s', step x s (.written j error) = some s' ∧ s'.holder = none
  | .writing => ∀ error, s.Advances x i c (.written i error)
  -- its time runs out, if it has a limit; its response is there, or its sender has gone; or its
  -- entry is there, and then a response with its number lets it return, and so does the end of the
  -- connection
  | .waiting => (∀ ms, budget x c.timeoutMs = some ms → s.Advances x i c (.timeout i)) ∧
      (s.Advances x i c (.receive i) ∨ (c.id, i) ∈ s.pending ∧
        (∀ frame : ResponseFrame, frame.id = some c.id →
          (s.onResponse frame).Advances x i c (.receive i)) ∧
        ∀ s', step x s .clearPending = some s' → s'.Advances x i c (.receive i))
  | .returned _ => True

theorem callAt_of {phase : Phase} (hi : s.calls[i]? = some c) (hphase : c.phase = phase) :
    s.callAt i phase = some c :=
  Option.filter_eq_some_iff.mpr ⟨hi, decide_eq_true hphase⟩

theorem step_of_callStep {l : Step} (h : callStep x s l = some s') : step x s l = some s' := by
  rw [OpenUds.step, h, Option.some_or]

/-- A step with which the call goes on to `phase`. -/
theorem advances_of {l : Step} (phase : Phase) (hstep : OpenUds.callStep x s l = some s')
    (hi : s.calls[i]? = some c)
    (hcalls : s'.calls = s.calls.modify i fun c => { c with phase := phase })
    (hleft : phase.left < c.phase.left) : s.Advances x i c l :=
  ⟨s', step_of_callStep hstep, { c with phase := phase },
    by rw [hcalls, getElem?_setPhase hi], hleft⟩

theorem callStep_written (hi : s.calls[i]? = some c) (hphase : c.phase = .writing)
    (error : Option String) : ∃ s' phase, OpenUds.callStep x s (.written i error) = some s' ∧
      s'.holder = none ∧ s'.calls = s.calls.modify i (fun c => { c with phase := phase }) ∧
      phase.left < c.phase.left := by
  rw [hphase]
  cases error with
  | none =>
    have hstep : OpenUds.callStep x s (.written i none) =
        some { s.setPhase i .waiting with holder := none } := by
      rw [OpenUds.callStep, callAt_of hi hphase, Option.map_some]
    exact ⟨_, .waiting, hstep, rfl, rfl, by decide⟩
  | some text =>
    have hstep : OpenUds.callStep x s (.written i (some text)) =
        some { s.giveUp i c.id (.io text) with holder := none } := by
      rw [OpenUds.callStep, callAt_of hi hphase, Option.map_some]
    exact ⟨_, .returned (.error (.io text)), hstep, rfl, rfl, by simp [Phase.left]⟩

/-- A call whose response is there, or whose sender has gone, returns. -/
theorem advances_receive (hi : s.calls[i]? = some c) (hphase : c.phase = .waiting)
    (hready : c.response.isSome = true ∨ s.pending.any (·.2 == i) = false) :
    s.Advances x i c (.receive i) := by
  obtain ⟨r, hstep⟩ : ∃ r, OpenUds.callStep x s (.receive i) =
      some (s.setPhase i (.returned r)) := by
    rw [OpenUds.callStep, callAt_of hi hphase, Option.bind_some]
    cases hresponse : c.response with
    | some frame => exact ⟨_, rfl⟩
    | none =>
      rw [hresponse] at hready
      have hgone := hready.resolve_left Bool.false_ne_true
      refine ⟨.error (.unavailable "openuds connection closed"), ?_⟩
      simp only [hgone, Bool.false_eq_true, if_false]
  exact advances_of (.returned r) hstep hi rfl (by simp [hphase, Phase.left])

theorem clearPending_spec (h : step x s .clearPending = some s') :
    s'.pending = [] ∧ s'.calls = s.calls := by
  rcases Option.or_eq_some_iff.mp h with h | ⟨-, h⟩
  · cases h
  · unfold OpenUds.connectionStep at h
    split at h <;> try contradiction
    all_goals
      rw [← Option.some.inj h]
      exact ⟨rfl, rfl⟩

/-- The sender of a call is found by the number of the call. -/
theorem Correlated.find_own (h : Correlated s) (hi : s.calls[i]? = some c) {e : String × ℕ}
    (he : e ∈ s.pending) (hei : e.2 = i) {frame : ResponseFrame} (hframe : frame.id = some c.id) :
    ∃ e', (frame.id.bind fun id => s.pending.find? (·.1 == id)) = some e' ∧ e'.2 = i := by
  have hid := (h.own hi he hei).1
  cases hfind : frame.id.bind fun id => s.pending.find? (·.1 == id) with
  | none =>
    rw [hframe, Option.bind_some] at hfind
    have hno := List.find?_eq_none.mp hfind e he
    rw [hid, beq_self_eq_true] at hno
    exact absurd rfl hno
  | some e' =>
    obtain ⟨-, hkey, d, hd, hdid, -⟩ := h.find hfind
    refine ⟨e', rfl, h.id_inj hd hi ?_⟩
    rw [hdid]
    exact Option.some.inj (hkey.symm.trans hframe)

/-- A response with the number of a call comes to the call, if its entry is there. -/
theorem Correlated.onResponse_own (h : Correlated s) (hi : s.calls[i]? = some c) {e : String × ℕ}
    (he : e ∈ s.pending) (hei : e.2 = i) {frame : ResponseFrame} (hframe : frame.id = some c.id) :
    (s.onResponse frame).calls[i]? = some { c with response := some frame } := by
  obtain ⟨e', hfind, he'⟩ := h.find_own hi he hei hframe
  unfold Client.onResponse
  rw [hfind]
  show (s.calls.modify e'.2 _)[i]? = _
  rw [he', List.getElem?_modify, hi]
  simp

/-- A call that waits is let return. -/
theorem Correlated.waiting_goes_on (h : Correlated s) (hi : s.calls[i]? = some c)
    (hphase : c.phase = .waiting) : s.Advances x i c (.receive i) ∨ (c.id, i) ∈ s.pending ∧
      (∀ frame : ResponseFrame, frame.id = some c.id →
        (s.onResponse frame).Advances x i c (.receive i)) ∧
      ∀ s', OpenUds.step x s .clearPending = some s' → s'.Advances x i c (.receive i) := by
  by_cases hready : c.response.isSome = true ∨ s.pending.any (·.2 == i) = false
  · exact .inl (advances_receive hi hphase hready)
  · right
    rw [not_or, Bool.not_eq_false] at hready
    obtain ⟨e, he, hentry⟩ := List.any_eq_true.mp hready.2
    have hei : e.2 = i := beq_iff_eq.mp hentry
    refine ⟨by rw [← (h.own hi he hei).1, ← hei]; exact he, fun frame hframe => ?_, fun s' hs' => ?_⟩
    · obtain ⟨s'', hstep, c', hc', hleft⟩ :=
        advances_receive (x := x) (h.onResponse_own hi he hei hframe) hphase (.inl rfl)
      exact ⟨s'', hstep, c', hc', hleft⟩
    · obtain ⟨hpending, hcalls⟩ := clearPending_spec hs'
      exact advances_receive (by rw [hcalls]; exact hi) hphase (.inr (by rw [hpending]; rfl))

/-- A call that has not returned is not stuck. -/
theorem Correlated.canGoOn (h : Correlated s) (x : Extern) (hi : s.calls[i]? = some c) :
    s.CanGoOn x i c := by
  unfold Client.CanGoOn
  split
  · rename_i hphase
    have hstep : OpenUds.callStep x s (.insert i) =
        some { (s.setPhase i .inserted).forget c.id with
          pending := (c.id, i) :: (s.forget c.id).pending } := by
      rw [OpenUds.callStep, callAt_of hi hphase, Option.map_some]
    exact advances_of .inserted hstep hi rfl (by simp [hphase, Phase.left])
  · rename_i hphase
    constructor
    · intro hfree
      have hstep : OpenUds.callStep x s (.lock i) =
          if s.writer = true then some { s.setPhase i .writing with holder := some i }
          else some (s.giveUp i c.id (.unavailable "openuds not connected")) := by
        rw [OpenUds.callStep, callAt_of hi hphase, Option.bind_some, hfree]
        exact if_neg Bool.false_ne_true
      by_cases hwriter : s.writer = true
      · rw [if_pos hwriter] at hstep
        exact advances_of .writing hstep hi rfl (by simp [hphase, Phase.left])
      · rw [if_neg hwriter] at hstep
        exact advances_of (.returned _) hstep hi rfl (by simp [hphase, Phase.left])
    · intro j hj error
      obtain ⟨d, hd, hwriting⟩ := h.holder j hj
      obtain ⟨s', -, hs', hholder, -⟩ := callStep_written (x := x) hd hwriting error
      exact ⟨s', step_of_callStep hs', hholder⟩
  · rename_i hphase
    intro error
    obtain ⟨s', phase, hs', -, hcalls, hleft⟩ := callStep_written (x := x) hi hphase error
    exact advances_of phase hs' hi hcalls hleft
  · rename_i hphase
    refine ⟨fun ms hms => ?_, h.waiting_goes_on hi hphase⟩
    have hstep : OpenUds.callStep x s (.timeout i) = some (s.giveUp i c.id (.timeout ms)) := by
      rw [OpenUds.callStep, callAt_of hi hphase, Option.bind_some, hms, Option.map_some]
    exact advances_of (.returned _) hstep hi rfl (by simp [hphase, Phase.left])
  · trivial

/-! ## Runs -/

theorem correlated_run (hrun : Reaches (step x) Few .start s) : Correlated s :=
  hrun.invariant .start fun _ _ _ h hfew hstep => h.step hfew hstep

/-- Whatever PMP sends, and however connections come and go: the map holds numbers of calls that have
    not returned; a call that returns a value or an error of the command returns what a response
    with its own number says; every response is sent to the call whose number it carries and to
    none twice; a call returns once; until then it only goes forward, and is not stuck. -/
theorem commands_correlated (x : Extern) (s : Client) (hrun : Reaches (step x) Few .start s) :
    (∀ e ∈ s.pending, ∃ c : Call, s.calls[e.2]? = some c ∧ c.id = e.1 ∧
      ∀ r, c.phase ≠ .returned r) ∧
    (∀ (i j : ℕ) (c d : Call), s.calls[i]? = some c → s.calls[j]? = some d → c.id = d.id → i = j) ∧
    (∀ (i : ℕ) (c : Call) (r : Outcome), s.calls[i]? = some c → c.phase = .returned r →
      FromResponse r → ∃ frame, (frame, some i) ∈ s.frames ∧ frame.id = some c.id ∧
        outcomeOf c.command frame = r) ∧
    (∀ frame i, (frame, some i) ∈ s.frames → ∃ c : Call, s.calls[i]? = some c ∧
      frame.id = some c.id) ∧
    (s.frames.filterMap (·.2)).Nodup ∧
    (∀ l s' (i : ℕ) (c : Call) (r : Outcome), step x s l = some s' → s.calls[i]? = some c →
      c.phase = .returned r → ∃ c' : Call, s'.calls[i]? = some c' ∧ c'.phase = .returned r) ∧
    (∀ l s' (i : ℕ) (c : Call), step x s l = some s' → s.calls[i]? = some c →
      ∃ c' : Call, s'.calls[i]? = some c' ∧
        (c'.phase = c.phase ∨ c'.phase.left < c.phase.left)) ∧
    ∀ (i : ℕ) (c : Call), s.calls[i]? = some c → s.CanGoOn x i c := by
  have h := correlated_run hrun
  refine ⟨fun e he => ?_, fun i j c d hi hj hid => h.id_inj hi hj hid, fun i c r hi hr hfrom => ?_,
    fun frame i hf => ?_, h.once, fun l s' i c r hstep hi hr => outcome_stays hstep hi hr,
    fun l s' i c hstep hi => step_forward hstep hi, fun i c hi => h.canGoOn x hi⟩
  · obtain ⟨c, hc, hid, hawaits, -⟩ := h.pending e he
    refine ⟨c, hc, hid, fun r hr => ?_⟩
    rw [hr] at hawaits
    exact hawaits
  · obtain ⟨frame, hresponse, hr⟩ := h.outcomes i c r hi hr hfrom
    have hf := h.responses i c frame hi hresponse
    obtain ⟨d, hd, hid, -⟩ := h.frames frame i hf
    obtain rfl := Option.some.inj (hi.symm.trans hd)
    exact ⟨frame, hf, hid, hr⟩
  · obtain ⟨c, hc, hid, -⟩ := h.frames frame i hf
    exact ⟨c, hc, hid⟩

/-- A response is an object with an `id`. -/
def sampleExtern : Extern where
  responseFrame value := some ⟨(value.get? "id").bind Json.asStr, true, value.get? "data", none⟩
  requestTimeoutMs := 10000

/-- The second command is answered before the first, and the first answer comes twice. -/
def sampleSteps : List Step :=
  [.begin "room.list" none, .begin "room.get" none, .insert 1, .install, .insert 0, .lock 0,
    .written 0 none, .lock 1, .written 1 none,
    .frame (.obj [("data", .str "b"), ("id", .str "2"), ("type", .str "response")]),
    .frame (.obj [("data", .str "a"), ("id", .str "1"), ("type", .str "response")]),
    .frame (.obj [("data", .str "c"), ("id", .str "1"), ("type", .str "response")]),
    .receive 0, .receive 1]

theorem commands_correlated_swapped : ∃ s, Reaches (step sampleExtern) Few .start s ∧
    s.calls.map (·.phase) = [.returned (.ok (.str "a")), .returned (.ok (.str "b"))] ∧
    (s.frames.filterMap (·.2)).Nodup := by
  have htest : ∀ (s : Client) (l : Step), decide (s.calls.length + 1 < 2 ^ 64) = true → Few s l := by
    intro s l h
    cases l with
    | begin command timeoutMs =>
      have hfew : s.calls.length + 1 < 2 ^ 64 := of_decide_eq_true h
      exact hfew
    | _ => trivial
  have hrun : (runWhile (step sampleExtern) (fun s _ => decide (s.calls.length + 1 < 2 ^ 64)) .start
      sampleSteps).any (fun s => decide (s.calls.map (·.phase) =
        [.returned (.ok (.str "a")), .returned (.ok (.str "b"))])) = true := by decide +kernel
  obtain ⟨s, hs, hphases⟩ := exists_reaches_of_runWhile htest hrun
  exact ⟨s, hs, of_decide_eq_true hphases, (commands_correlated sampleExtern s hs).2.2.2.2.1⟩

end Ppb.OpenUds
