import Ppb.Common.Json
import Ppb.Common.Trace

/-!
# Does a resumed event stream get every event once?

`EventBus::publish` appends an event to the history under its lock, and sends it to the
subscribers after it has released the lock. `events_sse` subscribes first and copies the end of
the history afterwards. What is published in between is in the copy and comes again live; and
two publishers may send in another order than they have appended.

* `seam_run`: the history after the id is the copy, what has come live and what is not yet sent.
* `sse_exactly_once`: which runs deliver each event once and in the order of the history.

Deviations: the receiver does not lag, so a subscriber gets everything that is sent after its
subscription; how an event is written into the stream is left out.
-/

namespace Ppb.Events

open Trace

/-- `PpbEvent` (pmp/events/mod.rs:40-50), without what nobody reads here. -/
structure PpbEvent where
  id : String
  eventType : String
  data : Json
  deriving DecidableEq

/-- `EventBus` (pmp/events/mod.rs:61-66). `published` and `sent` are all events so far, in the
    order of the history and in that of the channel; `unsent` are those of the calls of `publish`
    that have appended and not yet sent. -/
structure EventBus where
  maxHistory : ℕ
  history : List PpbEvent
  published : List PpbEvent
  unsent : List PpbEvent
  sent : List PpbEvent

/-- A connection of `events_sse` (public/routes.rs:164-204). It has subscribed after `since` sent
    events; `mark` is how many events had been published up to the one it resumes from. -/
inductive Conn where
  | closed
  | subscribed (since : ℕ)
  /-- the id was not in the history -/
  | missed (since : ℕ)
  | streaming (since : ℕ) (replay : List PpbEvent) (mark : Option ℕ)

/-- How many events had been sent when the connection subscribed. -/
def Conn.since? : Conn → Option ℕ
  | .closed => none
  | .subscribed since | .missed since | .streaming since _ _ => some since

structure State where
  bus : EventBus
  conn : Conn

/-- A step of a publisher or of the connection. -/
inductive Step where
  | append (event : PpbEvent)
  /-- one of the publishers that have appended sends -/
  | send (publisher : ℕ)
  | subscribe
  | replay (lastEventId : Option String)
  | snapshot

namespace EventBus

/-- `EventBus::new`. -/
def new (maxHistory : ℕ) : EventBus := ⟨maxHistory, [], [], [], []⟩

/-- The part of `publish` under the lock (pmp/events/mod.rs:81-87). -/
def append (bus : EventBus) (event : PpbEvent) : EventBus :=
  let history := bus.history ++ [event]
  { bus with
    history := history.drop (history.length - bus.maxHistory)
    published := bus.published ++ [event]
    unsent := bus.unsent ++ [event] }

/-- The end of `publish` (pmp/events/mod.rs:88). -/
def send (bus : EventBus) (publisher : ℕ) : Option EventBus :=
  (bus.unsent[publisher]?).map fun event =>
    { bus with unsent := bus.unsent.eraseIdx publisher, sent := bus.sent ++ [event] }

/-- `replay_from` (pmp/events/mod.rs:96-103): the events after the id, and how many had been
    published up to it. -/
def replayFrom (bus : EventBus) (lastEventId : String) : Option (List PpbEvent × ℕ) :=
  (bus.history.findIdx? (·.id == lastEventId)).map fun i =>
    (bus.history.drop (i + 1), bus.published.length - bus.history.length + (i + 1))

end EventBus

/-- One step. -/
def step (s : State) : Step → Option State
  | .append event => some { s with bus := s.bus.append event }
  | .send publisher => (s.bus.send publisher).map fun bus => { s with bus := bus }
  | .subscribe =>
    match s.conn with
    | .closed => some { s with conn := .subscribed s.bus.sent.length }
    | _ => none
  | .replay lastEventId =>
    match s.conn, lastEventId with
    | .subscribed since, some id =>
      match s.bus.replayFrom id with
      | some (replay, mark) => some { s with conn := .streaming since replay (some mark) }
      | none => some { s with conn := .missed since }
    | .subscribed since, none => some { s with conn := .streaming since [] none }
    | _, _ => none
  | .snapshot =>
    match s.conn with
    | .missed since => some { s with conn := .streaming since s.bus.history none }
    | _ => none

/-- No event yet, and no connection. -/
def start (maxHistory : ℕ) : State := ⟨.new maxHistory, .closed⟩

/-- What the connection has delivered: the copy, and what was sent since it has subscribed. -/
def delivered (bus : EventBus) (since : ℕ) (replay : List PpbEvent) : List PpbEvent :=
  replay ++ bus.sent.drop since

/-- A connection that was resumed has delivered the events after its id, each once and in the order
    of the history, as far as they have been sent. -/
def ExactlyOnce (s : State) : Prop :=
  ∀ since replay mark, s.conn = .streaming since replay (some mark) →
    delivered s.bus since replay <+: s.bus.published.drop mark ∧
      (s.bus.unsent = [] → delivered s.bus since replay = s.bus.published.drop mark)

/-- When the history is copied, every event has been sent before the subscription; afterwards the
    publishers send in the order in which they have appended. -/
def InOrder (s : State) : Step → Prop
  | .replay _ => ∀ since, s.conn = .subscribed since → s.bus.unsent = [] ∧ s.bus.sent.length = since
  | .send publisher => ∀ since replay mark, s.conn = .streaming since replay mark → publisher = 0
  | _ => True

variable {s s' : State} {bus : EventBus}

/-! ## The invariant -/

/-- The history is the end of what was published, and the channel carries the rest. -/
structure Seam (s : State) : Prop where
  history : s.bus.history <:+ s.bus.published
  since : ∀ since, s.conn.since? = some since → since ≤ s.bus.sent.length
  mark : ∀ since replay mark, s.conn = .streaming since replay (some mark) →
    mark ≤ s.bus.published.length ∧
      delivered s.bus since replay ++ s.bus.unsent = s.bus.published.drop mark

theorem Seam.exactlyOnce (h : Seam s) : ExactlyOnce s := by
  intro since replay mark hconn
  have hseam := (h.mark since replay mark hconn).2
  refine ⟨⟨s.bus.unsent, hseam⟩, fun hunsent => ?_⟩
  rw [hunsent, List.append_nil] at hseam
  exact hseam

/-- What `replay_from` returns. -/
theorem replayFrom_spec (hhistory : bus.history <:+ bus.published) {id : String}
    {replay : List PpbEvent} {mark : ℕ} (h : bus.replayFrom id = some (replay, mark)) :
    mark ≤ bus.published.length ∧ replay = bus.published.drop mark := by
  obtain ⟨i, hi, heq⟩ := Option.map_eq_some_iff.mp h
  obtain ⟨rfl, rfl⟩ := Prod.mk.inj heq
  have hlt : i < bus.history.length := (List.findIdx?_eq_some_iff_getElem.mp hi).1
  have hle := hhistory.length_le
  refine ⟨by omega, ?_⟩
  conv_lhs => rw [List.suffix_iff_eq_drop.mp hhistory]
  rw [List.drop_drop]

theorem Seam.append (h : Seam s) (event : PpbEvent) :
    Seam { s with bus := s.bus.append event } := by
  refine ⟨?_, h.since, fun since replay mark hconn => ?_⟩
  · have hall : s.bus.history ++ [event] <:+ s.bus.published ++ [event] := by
      obtain ⟨t, ht⟩ := h.history
      exact ⟨t, by rw [← List.append_assoc, ht]⟩
    exact (List.drop_suffix _ _).trans hall
  · obtain ⟨hmark, hseam⟩ := h.mark since replay mark hconn
    constructor
    · show mark ≤ (s.bus.published ++ [event]).length
      rw [List.length_append]
      omega
    · show delivered s.bus since replay ++ (s.bus.unsent ++ [event]) =
        (s.bus.published ++ [event]).drop mark
      rw [List.drop_append_of_le_length hmark, ← hseam, List.append_assoc]

/-- The oldest publisher sends. -/
theorem Seam.send (h : Seam s) {publisher : ℕ}
    (hfirst : ∀ since replay mark, s.conn = .streaming since replay mark → publisher = 0)
    (hsend : s.bus.send publisher = some bus) : Seam { s with bus := bus } := by
  obtain ⟨event, hevent, rfl⟩ := Option.map_eq_some_iff.mp hsend
  refine ⟨h.history, fun since hconn => ?_, fun since replay mark hconn => ?_⟩
  · have hsince := h.since since hconn
    show since ≤ (s.bus.sent ++ [event]).length
    rw [List.length_append]
    omega
  · obtain ⟨hmark, hseam⟩ := h.mark since replay mark hconn
    obtain rfl := hfirst since replay _ hconn
    refine ⟨hmark, ?_⟩
    show replay ++ (s.bus.sent ++ [event]).drop since ++ s.bus.unsent.eraseIdx 0 = _
    have hsince := h.since since (by rw [hconn]; rfl)
    rw [List.drop_append_of_le_length hsince, ← hseam, delivered]
    cases hunsent : s.bus.unsent with
    | nil => simp [hunsent] at hevent
    | cons first rest =>
      obtain rfl : first = event := by simpa [hunsent] using hevent
      simp

/-- What a step keeps. -/
theorem seam_step {l : Step} (h : Seam s) (hok : InOrder s l) (hstep : step s l = some s') :
    Seam s' := by
  cases l with
  | append event =>
    obtain rfl := Option.some.inj hstep
    exact h.append event
  | send publisher =>
    obtain ⟨bus, hsend, rfl⟩ := Option.map_eq_some_iff.mp hstep
    exact h.send hok hsend
  | subscribe =>
    simp only [step] at hstep
    split at hstep
    · obtain rfl := Option.some.inj hstep
      refine ⟨h.history, ?_, nofun⟩
      rintro _ ⟨⟩
      exact le_rfl
    · cases hstep
  | replay lastEventId =>
    simp only [step] at hstep
    split at hstep
    · rename_i since id hconn
      have hsince := h.since since (by rw [hconn]; rfl)
      split at hstep
      · rename_i replay mark hreplay
        obtain rfl := Option.some.inj hstep
        obtain ⟨hmark, rfl⟩ := replayFrom_spec h.history hreplay
        refine ⟨h.history, ?_, ?_⟩
        · rintro _ ⟨⟩
          exact hsince
        · rintro _ _ _ ⟨⟩
          -- nothing is on its way, and nothing has come live
          obtain ⟨hunsent, hlive⟩ := hok since hconn
          refine ⟨hmark, ?_⟩
          show _ ++ s.bus.sent.drop since ++ s.bus.unsent = _
          rw [hunsent, ← hlive, List.drop_length, List.append_nil, List.append_nil]
      · obtain rfl := Option.some.inj hstep
        refine ⟨h.history, ?_, nofun⟩
        rintro _ ⟨⟩
        exact hsince
    · rename_i since hconn
      obtain rfl := Option.some.inj hstep
      refine ⟨h.history, ?_, nofun⟩
      rintro _ ⟨⟩
      exact h.since since (by rw [hconn]; rfl)
    · cases hstep
  | snapshot =>
    simp only [step] at hstep
    split at hstep
    · rename_i since hconn
      obtain rfl := Option.some.inj hstep
      refine ⟨h.history, ?_, nofun⟩
      rintro _ ⟨⟩
      exact h.since since (by rw [hconn]; rfl)
    · cases hstep

/-! ## Runs -/

theorem seam_run {maxHistory : ℕ} (hrun : Reaches step InOrder (start maxHistory) s) : Seam s :=
  hrun.invariant ⟨List.suffix_rfl, nofun, nofun⟩ fun _ _ _ h hok hstep => seam_step h hok hstep

/-- If every event was sent before the subscription when the history is copied, and the publishers
    send in the order in which they have appended, the connection delivers the events after its id,
    each once and in that order. -/
theorem sse_exactly_once (maxHistory : ℕ) (s : State)
    (hrun : Reaches step InOrder (start maxHistory) s) : ExactlyOnce s :=
  (seam_run hrun).exactlyOnce

/-- An event with this id. -/
def sampleEvent (id : String) : PpbEvent := ⟨id, "room.updated", .null⟩

/-- A client that has seen `e1` resumes when `e2` has been sent; `e3` comes live. -/
def sampleResumed : State where
  bus := ⟨8, [sampleEvent "e1", sampleEvent "e2", sampleEvent "e3"],
    [sampleEvent "e1", sampleEvent "e2", sampleEvent "e3"], [],
    [sampleEvent "e1", sampleEvent "e2", sampleEvent "e3"]⟩
  conn := .streaming 2 [sampleEvent "e2"] (some 1)

theorem reaches_sampleResumed : Reaches step InOrder (start 8) sampleResumed := by
  have hpublish : ∀ {s : State} {e : PpbEvent}, Reaches step InOrder (start 8) s →
      s.bus.unsent = [] → Reaches step InOrder (start 8)
        { s with bus := { s.bus.append e with unsent := [], sent := s.bus.sent ++ [e] } } := by
    intro s e hs hunsent
    have happend : Reaches step InOrder (start 8) { s with bus := s.bus.append e } :=
      hs.next (show InOrder s (.append e) from trivial) rfl
    refine happend.next (show InOrder _ (.send 0) from fun _ _ _ _ => rfl) ?_
    simp [step, EventBus.send, EventBus.append, hunsent]
  have hsubscribed := (hpublish (hpublish .start rfl (e := sampleEvent "e1")) rfl
    (e := sampleEvent "e2")).next (show InOrder _ .subscribe from trivial) rfl
  have hstreaming := hsubscribed.next (show InOrder _ (.replay (some "e1")) by
    rintro _ ⟨⟩
    exact ⟨rfl, rfl⟩) rfl
  exact hpublish hstreaming rfl

theorem sse_exactly_once_resumed : Reaches step InOrder (start 8) sampleResumed ∧
    delivered sampleResumed.bus 2 [sampleEvent "e2"] = [sampleEvent "e2", sampleEvent "e3"] :=
  ⟨reaches_sampleResumed,
    (sse_exactly_once 8 sampleResumed reaches_sampleResumed 2 _ 1 rfl).2 rfl⟩

/-- The connection has replayed an event that it sends again. -/
def sendsTwice (s : State) : Bool :=
  match s.conn with
  | .streaming since replay (some mark) => decide (s.bus.unsent = []) &&
    decide (delivered s.bus since replay ≠ s.bus.published.drop mark)
  | _ => false

/-- `e2` is appended between the subscription and the copy, and sent afterwards: the client that has
    seen `e1` gets it twice. -/
theorem not_exactly_once_twice : ∃ s, Reachable step (start 8) s ∧ ¬ ExactlyOnce s := by
  have hrun : ((runFrom step (start 8) [.append (sampleEvent "e1"), .send 0, .subscribe,
      .append (sampleEvent "e2"), .replay (some "e1"), .send 0]).any
        sendsTwice) = true := by decide +kernel
  obtain ⟨s, hs, htest⟩ := exists_reachable_of_runFrom hrun
  refine ⟨s, hs, fun honce => ?_⟩
  unfold sendsTwice at htest
  split at htest
  · rename_i since replay mark hconn
    simp only [Bool.and_eq_true, decide_eq_true_eq] at htest
    exact htest.2 ((honce since replay mark hconn).2 htest.1)
  · cases htest

end Ppb.Events
