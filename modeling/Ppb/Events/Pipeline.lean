import Ppb.Common.Broadcast
import Ppb.Common.Json
import Ppb.Common.Trace

/-!
# From PMP to the event streams (`pmp/events/mod.rs`, `app.rs`, `public/routes.rs`)

The client of PMP sends every event into a channel. A forwarder gets them there, makes an
envelope of those that are public (`map_pmp_event`), and publishes it on the `EventBus`: into
the history, then into the channel of the bus. Another task publishes a heartbeat with the
counts of the last one that came from PMP. A connection of `events_sse` or of
`admin_events_sse` subscribes to the bus, copies the end of the history, and then gets what
comes. Both channels forget.

An item carries the event of PMP it was made from, which is no part of the source.

* `Genuine`: what an item may be.
* `Flows`: what every step keeps.
* `events_flow`: in every run, a connection gets public events only, each made from one of
  PMP's or a heartbeat with PMP's counts; and those of PMP in PMP's order, each at most once,
  and all of them where nobody has lagged.
-/

namespace Ppb.Events.Pipeline

open Broadcast Trace

/-! ## Events and envelopes -/

/-- `EventFrame` (pmp/openuds/types.rs:25-35). -/
structure EventFrame where
  eventType : String
  data : Json
  eventId : String
  timestamp : Int64
  deriving DecidableEq

/-- `ResourceRef` (pmp/events/mod.rs:20-37). -/
structure ResourceRef where
  resourceType : String
  id : String
  deriving DecidableEq

def ResourceRef.room (id : String) : ResourceRef := ⟨"room", id⟩

def ResourceRef.user (id : String) : ResourceRef := ⟨"user", id⟩

def ResourceRef.server : ResourceRef := ⟨"server", "main"⟩

/-- `PpbEvent` (pmp/events/mod.rs:40-50). Times are seconds. -/
structure Envelope where
  id : String
  eventType : String
  version : ℕ
  occurredAt : ℤ
  resource : ResourceRef
  data : Json
  deriving DecidableEq

/-- `chrono::DateTime::from_timestamp(secs, 0)`, the capacities of the two channels, which are 1024
    (client.rs:99, app.rs:160), and the length of the history, which is 256 (app.rs:160). -/
structure Extern where
  fromTimestamp : Int64 → Option ℤ
  framesCapacity : ℕ
  busCapacity : ℕ
  maxHistory : ℕ

def intField (data : Json) (key : String) : Int64 := ((data.get? key).bind Json.asI64).getD 0

def textField (data : Json) (key : String) : String := ((data.get? key).bind Json.asStr).getD ""

/-- The resource of a public event (pmp/events/mod.rs:117-143). -/
def resourceOf (frame : EventFrame) : Option ResourceRef :=
  if frame.eventType ∈ ["user.online", "user.offline"] then
    some (.user (toString (intField frame.data "user_id").toInt))
  else if frame.eventType ∈ ["room.created", "room.updated", "room.joined", "room.left"] then
    some (.room (textField frame.data "room_id"))
  else if frame.eventType ∈ ["round.started", "round.completed"] then
    some (.room (textField frame.data "room_id"))
  else if frame.eventType = "server.heartbeat" then some .server
  else none

/-- `map_pmp_event` (pmp/events/mod.rs:113-153). -/
def mapPmpEvent (x : Extern) (now : ℤ) (frame : EventFrame) : Option Envelope :=
  (resourceOf frame).map fun resource =>
    { id := frame.eventId
      eventType := frame.eventType
      version := 1
      occurredAt := (x.fromTimestamp frame.timestamp).getD now
      resource := resource
      data := frame.data }

/-- The counts of a heartbeat: users, rooms and sessions. -/
abbrev Counts := Int64 × Int64 × Int64

def countsOf (frame : EventFrame) : Counts :=
  (intField frame.data "users", intField frame.data "rooms", intField frame.data "sessions")

/-- The heartbeat of `spawn_heartbeat_task` (app.rs:325-343). -/
def heartbeat (id : String) (now : ℤ) (counts : Counts) : Envelope where
  id := id
  eventType := "server.heartbeat"
  version := 1
  occurredAt := now
  resource := .server
  data := .obj [("rooms", .ofInt64 counts.2.1), ("sessions", .ofInt64 counts.2.2),
    ("users", .ofInt64 counts.1)]

/-! ## The tasks and the connections -/

/-- An envelope, with the event it was made from. -/
structure Item where
  event : Envelope
  origin : Option EventFrame

/-- A connection; `replay` is what it has copied from the history, once it has. -/
structure Conn where
  missed : Bool
  replay : Option (List Item)
  live : Receiver Item

/-- Where `spawn_pmp_event_forwarder` stands. -/
inductive Forwarder where
  | idle
  | got (frame : EventFrame)
  /-- in the history, and not yet in the channel -/
  | held (item : Item)

/-- Where `spawn_heartbeat_task` stands. -/
inductive Ticker where
  | idle
  | read (counts : Counts)
  | held (item : Item)

/-- `frames` and `sent` are what was sent into the two channels. -/
structure State where
  frames : List EventFrame
  input : Receiver EventFrame
  forwarder : Forwarder
  counts : Counts
  ticker : Ticker
  history : List Item
  sent : List Item
  conns : List Conn

def State.start : State := ⟨[], subscribe [], .idle, (0, 0, 0), .idle, [], [], []⟩

inductive Step where
  /-- an event of PMP -/
  | frame (frame : EventFrame)
  /-- the forwarder gets one -/
  | forward
  | forwardAppend (now : ℤ)
  | forwardSend
  | tick
  | tickAppend (id : String) (now : ℤ)
  | tickSend
  | connect
  | resume (i : ℕ) (lastEventId : Option String)
  | snapshot (i : ℕ)
  | deliver (i : ℕ)

/-- The history without what is too old (pmp/events/mod.rs:82-84). -/
def keep (maxHistory : ℕ) (history : List Item) : List Item :=
  history.drop (history.length - maxHistory)

/-- The part of `publish` under the lock (pmp/events/mod.rs:78-85). -/
def State.append (x : Extern) (s : State) (item : Item) : State :=
  { s with history := keep x.maxHistory (s.history ++ [item]) }

/-- The end of `publish` (pmp/events/mod.rs:87). -/
def State.send (s : State) (item : Item) : State := { s with sent := s.sent ++ [item] }

def State.setConn (s : State) (i : ℕ) (c : Conn) : State := { s with conns := s.conns.set i c }

/-- `replay_from` (pmp/events/mod.rs:95-102). -/
def replayFrom (history : List Item) (lastEventId : String) : Option (List Item) :=
  (history.findIdx? (·.event.id == lastEventId)).map fun i => history.drop (i + 1)

/-- A step of `spawn_pmp_event_forwarder` (app.rs:239-265). -/
def forwardStep (x : Extern) (s : State) : Step → Option State
  | .forward => match s.forwarder with
    | .idle => (recv x.framesCapacity s.frames s.input).map fun r => match r.1 with
      | some frame => { s with
          input := r.2
          forwarder := .got frame
          counts := if frame.eventType = "server.heartbeat" then countsOf frame else s.counts }
      | none => { s with input := r.2 }
    | _ => none
  | .forwardAppend now => match s.forwarder with
    | .got frame => match mapPmpEvent x now frame with
      | some event =>
        some { s.append x ⟨event, some frame⟩ with forwarder := .held ⟨event, some frame⟩ }
      | none => some { s with forwarder := .idle }
    | _ => none
  | .forwardSend => match s.forwarder with
    | .held item => some { s.send item with forwarder := .idle }
    | _ => none
  | _ => none

/-- A step of `spawn_heartbeat_task` (app.rs:327-346). -/
def tickStep (x : Extern) (s : State) : Step → Option State
  | .tick => match s.ticker with
    | .idle => some { s with ticker := .read s.counts }
    | _ => none
  | .tickAppend id now => match s.ticker with
    | .read counts =>
      let item : Item := ⟨heartbeat id now counts, none⟩
      some { s.append x item with ticker := .held item }
    | _ => none
  | .tickSend => match s.ticker with
    | .held item => some { s.send item with ticker := .idle }
    | _ => none
  | _ => none

/-- A step of a connection (public/routes.rs:164-204, admin/routes.rs:46-92). -/
def connStep (x : Extern) (s : State) : Step → Option State
  | .connect => some { s with conns := s.conns ++ [⟨false, none, subscribe s.sent⟩] }
  | .resume i lastEventId => (s.conns[i]?).bind fun c =>
      if c.missed = true ∨ c.replay.isSome = true then none
      else match lastEventId with
        | none => some (s.setConn i { c with replay := some [] })
        | some id => match replayFrom s.history id with
          | some items => some (s.setConn i { c with replay := some items })
          | none => some (s.setConn i { c with missed := true })
  | .snapshot i => (s.conns[i]?).bind fun c =>
      if c.missed = true ∧ c.replay.isNone = true then
        some (s.setConn i { c with replay := some s.history })
      else none
  | .deliver i => (s.conns[i]?).bind fun c =>
      if c.replay.isSome = true then
        (recv x.busCapacity s.sent c.live).map fun r => s.setConn i { c with live := r.2 }
      else none
  | _ => none

def step (x : Extern) (s : State) (l : Step) : Option State :=
  match l with
  | .frame frame => some { s with frames := s.frames ++ [frame] }
  | l => ((forwardStep x s l).or (tickStep x s l)).or (connStep x s l)

/-! ## What flows -/

/-- The types of the events that leave the server. -/
def publicTypes : List String :=
  ["user.online", "user.offline", "room.created", "room.updated", "room.joined", "room.left",
    "round.started", "round.completed", "server.heartbeat"]

def isPublic (frame : EventFrame) : Bool := (resourceOf frame).isSome

/-- What PMP last said, or nothing yet. -/
def Known (frames : List EventFrame) (counts : Counts) : Prop :=
  counts = (0, 0, 0) ∨ ∃ f ∈ frames, f.eventType = "server.heartbeat" ∧ counts = countsOf f

/-- An item is the envelope of an event of PMP or a heartbeat. -/
def Genuine (x : Extern) (frames : List EventFrame) (item : Item) : Prop :=
  match item.origin with
  | some f => f ∈ frames ∧ ∃ now, mapPmpEvent x now f = some item.event
  | none => ∃ id now counts, item.event = heartbeat id now counts ∧ Known frames counts

/-- The events that the forwarder is busy with. -/
def Forwarder.busy : Forwarder → List EventFrame
  | .idle => []
  | .got frame => [frame].filter isPublic
  | .held item => item.origin.toList

def Forwarder.items : Forwarder → List Item
  | .held item => [item]
  | _ => []

def Ticker.items : Ticker → List Item
  | .held item => [item]
  | _ => []

/-- All items that are anywhere. -/
def State.items (s : State) : List Item :=
  s.forwarder.items ++ s.ticker.items ++ s.history ++ s.sent ++
    s.conns.flatMap fun c => c.replay.getD [] ++ c.live.got

structure Flows (x : Extern) (s : State) : Prop where
  input : Hears s.frames s.input
  first : s.input.since = 0
  got : ∀ frame, s.forwarder = .got frame → frame ∈ s.frames
  order : s.sent.filterMap (·.origin) ++ s.forwarder.busy = s.input.got.filter isPublic
  own : ∀ item ∈ s.ticker.items, item.origin = none
  counts : Known s.frames s.counts
  read : ∀ counts, s.ticker = .read counts → Known s.frames counts
  genuine : ∀ item ∈ s.items, Genuine x s.frames item
  conns : ∀ c ∈ s.conns, Hears s.sent c.live

variable {x : Extern} {s s' : State} {l : Step} {f : EventFrame} {item item' : Item} {now : ℤ}

theorem isPublic_of_map {event : Envelope} (h : mapPmpEvent x now f = some event) :
    isPublic f = true := by
  obtain ⟨resource, hresource, -⟩ := Option.map_eq_some_iff.mp h
  rw [isPublic, hresource]
  rfl

theorem not_isPublic_of_map (h : mapPmpEvent x now f = none) : isPublic f = false := by
  rw [isPublic, Option.map_eq_none_iff.mp h]
  rfl

/-- Only public events are mapped. -/
theorem mem_publicTypes (h : isPublic f = true) : f.eventType ∈ publicTypes := by
  unfold isPublic resourceOf at h
  unfold publicTypes
  split_ifs at h with huser hroom hround hbeat
  · exact List.mem_append_left _ huser
  · exact List.mem_append_right ["user.online", "user.offline"] (List.mem_append_left _ hroom)
  · exact List.mem_append_right ["user.online", "user.offline", "room.created", "room.updated",
      "room.joined", "room.left"] (List.mem_append_left _ hround)
  · simp [hbeat]
  · cases h

theorem Genuine.publicType (h : Genuine x s.frames item) : item.event.eventType ∈ publicTypes := by
  unfold Genuine at h
  split at h
  · obtain ⟨-, now, hmap⟩ := h
    have hpublic := mem_publicTypes (isPublic_of_map hmap)
    obtain ⟨resource, -, heq⟩ := Option.map_eq_some_iff.mp hmap
    rw [← heq]
    exact hpublic
  · obtain ⟨id, now, counts, heq, -⟩ := h
    rw [heq]
    show "server.heartbeat" ∈ publicTypes
    decide

theorem Known.push {frames : List EventFrame} {counts : Counts} (h : Known frames counts)
    (frame : EventFrame) : Known (frames ++ [frame]) counts :=
  h.imp_right fun ⟨f, hf, hrest⟩ => ⟨f, List.mem_append_left _ hf, hrest⟩

theorem Genuine.push {frames : List EventFrame} (h : Genuine x frames item) (frame : EventFrame) :
    Genuine x (frames ++ [frame]) item := by
  unfold Genuine at h ⊢
  split
  · rename_i f horigin
    rw [horigin] at h
    exact ⟨List.mem_append_left _ h.1, h.2⟩
  · rename_i horigin
    rw [horigin] at h
    obtain ⟨id, now, counts, heq, hknown⟩ := h
    exact ⟨id, now, counts, heq, hknown.push frame⟩

theorem mem_items : item ∈ s.items ↔ item ∈ s.forwarder.items ∨ item ∈ s.ticker.items ∨
    item ∈ s.history ∨ item ∈ s.sent ∨
      ∃ c ∈ s.conns, item ∈ c.replay.getD [] ∨ item ∈ c.live.got := by
  simp only [State.items, List.mem_append, List.mem_flatMap, or_assoc]

theorem mem_history_append (h : item ∈ (s.append x item').history) :
    item ∈ s.history ∨ item = item' := by
  have hmem : item ∈ s.history ++ [item'] := List.mem_of_mem_drop h
  rwa [List.mem_append, List.mem_singleton] at hmem

/-! ### The forwarder -/

theorem Flows.frame (h : Flows x s) (frame : EventFrame) :
    Flows x { s with frames := s.frames ++ [frame] } where
  input := h.input.push frame
  first := h.first
  got f hf := List.mem_append_left _ (h.got f hf)
  order := h.order
  own := h.own
  counts := h.counts.push frame
  read counts hcounts := (h.read counts hcounts).push frame
  genuine item hitem := (h.genuine item hitem).push frame
  conns := h.conns

/-- The forwarder gets an event. -/
theorem Flows.receive (h : Flows x s) (hidle : s.forwarder = .idle) {input : Receiver EventFrame}
    (hrecv : recv x.framesCapacity s.frames s.input = some (some f, input)) :
    Flows x { s with
      input := input
      forwarder := .got f
      counts := if f.eventType = "server.heartbeat" then countsOf f else s.counts } := by
  have hinput := h.input.next hrecv
  obtain ⟨hf, rfl⟩ := recv_item hrecv
  have hmem : f ∈ s.frames := List.mem_of_getElem? hf
  refine ⟨hinput, h.first, ?_, ?_, h.own, ?_, h.read, fun item hitem => ?_, h.conns⟩
  · rintro _ ⟨⟩
    exact hmem
  · have horder := h.order
    rw [hidle] at horder
    show _ ++ [f].filter isPublic = (s.input.got ++ [f]).filter isPublic
    rw [List.filter_append, ← horder, Forwarder.busy, List.append_nil]
  · show Known s.frames (if _ then _ else _)
    split_ifs with hbeat
    · exact .inr ⟨f, hmem, hbeat, rfl⟩
    · exact h.counts
  · refine h.genuine item (mem_items.mpr ?_)
    rcases mem_items.mp hitem with hin | hin
    · cases hin
    · exact .inr hin

/-- The forwarder has lagged. -/
theorem Flows.lag (h : Flows x s) {input : Receiver EventFrame}
    (hrecv : recv x.framesCapacity s.frames s.input = some (none, input)) :
    Flows x { s with input := input } := by
  have hinput := h.input.next hrecv
  obtain ⟨-, rfl⟩ := recv_lagged hrecv
  exact ⟨hinput, h.first, h.got, h.order, h.own, h.counts, h.read, h.genuine, h.conns⟩

/-- What the forwarder has got goes into the history. -/
theorem Flows.forwardAppend (h : Flows x s) (hgot : s.forwarder = .got f) {event : Envelope}
    (hmap : mapPmpEvent x now f = some event) :
    Flows x { s.append x ⟨event, some f⟩ with forwarder := .held ⟨event, some f⟩ } := by
  refine ⟨h.input, h.first, by rintro _ ⟨⟩, ?_, h.own, h.counts, h.read, fun item hitem => ?_, h.conns⟩
  · have horder := h.order
    rw [hgot, Forwarder.busy, List.filter_cons_of_pos (isPublic_of_map hmap), List.filter_nil]
      at horder
    exact horder
  · have hnew : Genuine x s.frames ⟨event, some f⟩ := ⟨h.got f hgot, now, hmap⟩
    rcases mem_items.mp hitem with hin | hin | hin | hin
    · rw [List.mem_singleton.mp hin]
      exact hnew
    · exact h.genuine item (mem_items.mpr (.inr (.inl hin)))
    · rcases mem_history_append hin with hin | rfl
      · exact h.genuine item (mem_items.mpr (.inr (.inr (.inl hin))))
      · exact hnew
    · exact h.genuine item (mem_items.mpr (.inr (.inr (.inr hin))))

/-- It is not public. -/
theorem Flows.skip (h : Flows x s) (hgot : s.forwarder = .got f)
    (hmap : mapPmpEvent x now f = none) : Flows x { s with forwarder := .idle } := by
  refine ⟨h.input, h.first, by rintro _ ⟨⟩, ?_, h.own, h.counts, h.read, fun item hitem => ?_, h.conns⟩
  · have horder := h.order
    rw [hgot, Forwarder.busy, List.filter_cons_of_neg (by simp [not_isPublic_of_map hmap])] at horder
    exact horder
  · refine h.genuine item (mem_items.mpr ?_)
    rcases mem_items.mp hitem with hin | hin
    · cases hin
    · exact .inr hin

theorem Flows.forwardSend (h : Flows x s) (hheld : s.forwarder = .held item) :
    Flows x { s.send item with forwarder := .idle } := by
  refine ⟨h.input, h.first, by rintro _ ⟨⟩, ?_, h.own, h.counts, h.read, fun item' hitem => ?_,
    fun c hc => (h.conns c hc).push item⟩
  · have horder := h.order
    rw [hheld] at horder
    show (s.sent ++ [item]).filterMap (·.origin) ++ [] = s.input.got.filter isPublic
    rw [← horder, List.filterMap_append, List.append_nil]
    show _ = _ ++ item.origin.toList
    cases horigin : item.origin <;> simp [horigin]
  · refine h.genuine item' (mem_items.mpr ?_)
    rw [hheld]
    rcases mem_items.mp hitem with hin | hin | hin | hin | hin
    · cases hin
    · exact .inr (.inl hin)
    · exact .inr (.inr (.inl hin))
    · rcases List.mem_append.mp hin with hin | hin
      · exact .inr (.inr (.inr (.inl hin)))
      · exact .inl hin
    · exact .inr (.inr (.inr (.inr hin)))

theorem flows_forward (h : Flows x s) (hstep : forwardStep x s l = some s') : Flows x s' := by
  unfold forwardStep at hstep
  split at hstep
  · split at hstep
    · rename_i hidle
      obtain ⟨⟨o, input⟩, hrecv, rfl⟩ := Option.map_eq_some_iff.mp hstep
      cases o with
      | some f => exact h.receive hidle hrecv
      | none => exact h.lag hrecv
    · cases hstep
  · split at hstep
    · rename_i f hgot
      split at hstep
      · rename_i event hmap
        obtain rfl := Option.some.inj hstep
        exact h.forwardAppend hgot hmap
      · rename_i hmap
        obtain rfl := Option.some.inj hstep
        exact h.skip hgot hmap
    · cases hstep
  · split at hstep
    · rename_i item hheld
      obtain rfl := Option.some.inj hstep
      exact h.forwardSend hheld
    · cases hstep
  · cases hstep

/-! ### The heartbeat -/

theorem Flows.tickAppend (h : Flows x s) {counts : Counts} (hread : s.ticker = .read counts)
    {id : String} (hitem : item = ⟨heartbeat id now counts, none⟩) :
    Flows x { s.append x item with ticker := .held item } := by
  refine ⟨h.input, h.first, h.got, h.order, fun item' hmem => ?_, h.counts, by rintro _ ⟨⟩,
    fun item' hmem => ?_, h.conns⟩
  · rw [List.mem_singleton.mp hmem, hitem]
  · have hnew : Genuine x s.frames item := by
      rw [hitem]
      exact ⟨id, now, counts, rfl, h.read counts hread⟩
    rcases mem_items.mp hmem with hin | hin | hin | hin
    · exact h.genuine item' (mem_items.mpr (.inl hin))
    · rw [List.mem_singleton.mp hin]
      exact hnew
    · rcases mem_history_append hin with hin | rfl
      · exact h.genuine item' (mem_items.mpr (.inr (.inr (.inl hin))))
      · exact hnew
    · exact h.genuine item' (mem_items.mpr (.inr (.inr (.inr hin))))

theorem Flows.tickSend (h : Flows x s) (hheld : s.ticker = .held item) :
    Flows x { s.send item with ticker := .idle } := by
  have hown : item.origin = none := h.own item (by rw [hheld]; exact List.mem_singleton.mpr rfl)
  refine ⟨h.input, h.first, h.got, ?_, fun item' hmem => (by cases hmem), h.counts, by rintro _ ⟨⟩,
    fun item' hmem => ?_, fun c hc => (h.conns c hc).push item⟩
  · show (s.sent ++ [item]).filterMap (·.origin) ++ _ = _
    rw [List.filterMap_append, List.filterMap_cons_none hown, List.filterMap_nil, List.append_nil]
    exact h.order
  · refine h.genuine item' (mem_items.mpr ?_)
    rw [hheld]
    rcases mem_items.mp hmem with hin | hin | hin | hin | hin
    · exact .inl hin
    · cases hin
    · exact .inr (.inr (.inl hin))
    · rcases List.mem_append.mp hin with hin | hin
      · exact .inr (.inr (.inr (.inl hin)))
      · exact .inr (.inl hin)
    · exact .inr (.inr (.inr (.inr hin)))

theorem flows_tick (h : Flows x s) (hstep : tickStep x s l = some s') : Flows x s' := by
  unfold tickStep at hstep
  split at hstep
  · split at hstep
    · rename_i hidle
      obtain rfl := Option.some.inj hstep
      refine ⟨h.input, h.first, h.got, h.order, fun item hmem => (by cases hmem), h.counts, ?_,
        fun item hmem => h.genuine item (mem_items.mpr ?_), h.conns⟩
      · rintro _ ⟨⟩
        exact h.counts
      · rcases mem_items.mp hmem with hin | hin | hin
        · exact .inl hin
        · cases hin
        · exact .inr (.inr hin)
    · cases hstep
  · split at hstep
    · rename_i counts hread
      obtain rfl := Option.some.inj hstep
      exact h.tickAppend hread rfl
    · cases hstep
  · split at hstep
    · rename_i item hheld
      obtain rfl := Option.some.inj hstep
      exact h.tickSend hheld
    · cases hstep
  · cases hstep

/-! ### The connections -/

/-- A connection goes on; what it has is among the items there were. -/
theorem Flows.setConn (h : Flows x s) {i : ℕ} {c : Conn} (hlive : Hears s.sent c.live)
    (hold : ∀ item, item ∈ c.replay.getD [] ∨ item ∈ c.live.got → item ∈ s.items) :
    Flows x (s.setConn i c) := by
  refine ⟨h.input, h.first, h.got, h.order, h.own, h.counts, h.read, fun item hmem => ?_,
    fun d hd => ?_⟩
  · rcases mem_items.mp hmem with hin | hin | hin | hin | ⟨d, hd, hin⟩
    · exact h.genuine item (mem_items.mpr (.inl hin))
    · exact h.genuine item (mem_items.mpr (.inr (.inl hin)))
    · exact h.genuine item (mem_items.mpr (.inr (.inr (.inl hin))))
    · exact h.genuine item (mem_items.mpr (.inr (.inr (.inr (.inl hin)))))
    · rcases List.mem_or_eq_of_mem_set hd with hd | rfl
      · exact h.genuine item (mem_items.mpr (.inr (.inr (.inr (.inr ⟨d, hd, hin⟩)))))
      · exact h.genuine item (hold item hin)
  · rcases List.mem_or_eq_of_mem_set hd with hd | rfl
    · exact h.conns d hd
    · exact hlive

theorem mem_items_of_conn {c : Conn} (hc : c ∈ s.conns)
    (h : item ∈ c.replay.getD [] ∨ item ∈ c.live.got) : item ∈ s.items :=
  mem_items.mpr (.inr (.inr (.inr (.inr ⟨c, hc, h⟩))))

theorem mem_items_of_history (h : item ∈ s.history) : item ∈ s.items :=
  mem_items.mpr (.inr (.inr (.inl h)))

theorem flows_conn (h : Flows x s) (hstep : connStep x s l = some s') : Flows x s' := by
  unfold connStep at hstep
  split at hstep
  · -- a new connection has nothing yet
    obtain rfl := Option.some.inj hstep
    refine ⟨h.input, h.first, h.got, h.order, h.own, h.counts, h.read, fun item hmem => ?_,
      fun d hd => ?_⟩
    · refine h.genuine item (mem_items.mpr ?_)
      rcases mem_items.mp hmem with hin | hin | hin | hin | ⟨d, hd, hin⟩
      · exact .inl hin
      · exact .inr (.inl hin)
      · exact .inr (.inr (.inl hin))
      · exact .inr (.inr (.inr (.inl hin)))
      · rcases List.mem_append.mp hd with hd | hd
        · exact .inr (.inr (.inr (.inr ⟨d, hd, hin⟩)))
        · obtain rfl := List.mem_singleton.mp hd
          rcases hin with hin | hin <;> cases hin
    · rcases List.mem_append.mp hd with hd | hd
      · exact h.conns d hd
      · rw [List.mem_singleton.mp hd]
        exact hears_subscribe s.sent
  · obtain ⟨c, hi, hstep⟩ := Option.bind_eq_some_iff.mp hstep
    have hc : c ∈ s.conns := List.mem_of_getElem? hi
    split_ifs at hstep
    split at hstep
    · obtain rfl := Option.some.inj hstep
      refine h.setConn (h.conns c hc) fun item hin => mem_items_of_conn hc (.inr ?_)
      exact hin.resolve_left (by simp)
    · rename_i id
      split at hstep
      · rename_i items hreplay
        obtain rfl := Option.some.inj hstep
        obtain ⟨n, -, rfl⟩ := Option.map_eq_some_iff.mp hreplay
        refine h.setConn (h.conns c hc) fun item hin => ?_
        rcases hin with hin | hin
        · exact mem_items_of_history (List.mem_of_mem_drop hin)
        · exact mem_items_of_conn hc (.inr hin)
      · obtain rfl := Option.some.inj hstep
        exact h.setConn (h.conns c hc) fun item hin => mem_items_of_conn hc hin
  · obtain ⟨c, hi, hstep⟩ := Option.bind_eq_some_iff.mp hstep
    have hc : c ∈ s.conns := List.mem_of_getElem? hi
    split_ifs at hstep
    obtain rfl := Option.some.inj hstep
    refine h.setConn (h.conns c hc) fun item hin => ?_
    rcases hin with hin | hin
    · exact mem_items_of_history hin
    · exact mem_items_of_conn hc (.inr hin)
  · obtain ⟨c, hi, hstep⟩ := Option.bind_eq_some_iff.mp hstep
    have hc : c ∈ s.conns := List.mem_of_getElem? hi
    split_ifs at hstep
    obtain ⟨⟨o, live⟩, hrecv, rfl⟩ := Option.map_eq_some_iff.mp hstep
    have hlive := (h.conns c hc).next hrecv
    refine h.setConn hlive fun item hin => ?_
    rcases hin with hin | hin
    · exact mem_items_of_conn hc (.inl hin)
    · exact mem_items.mpr (.inr (.inr (.inr (.inl (hlive.mem hin)))))
  · cases hstep

/-! ## Runs -/

theorem flows_start : Flows x .start := by
  refine ⟨hears_subscribe [], rfl, by rintro _ ⟨⟩, rfl, ?_, .inl rfl, by rintro _ ⟨⟩, ?_, ?_⟩
  · intro item hmem
    cases hmem
  · intro item hmem
    rcases mem_items.mp hmem with hin | hin | hin | hin | ⟨c, hc, -⟩
    all_goals first | cases hin | cases hc
  · intro c hc
    cases hc

theorem flows_step (h : Flows x s) (hstep : step x s l = some s') : Flows x s' := by
  unfold step at hstep
  split at hstep
  · obtain rfl := Option.some.inj hstep
    exact h.frame _
  · rcases Option.or_eq_some_iff.mp hstep with hstep | ⟨-, hstep⟩
    · rcases Option.or_eq_some_iff.mp hstep with hstep | ⟨-, hstep⟩
      · exact flows_forward h hstep
      · exact flows_tick h hstep
    · exact flows_conn h hstep

theorem flows_run (hrun : Reachable (step x) .start s) : Flows x s :=
  hrun.invariant flows_start fun _ _ _ h _ hstep => flows_step h hstep

/-- The events of PMP among the items. -/
def origins (items : List Item) : List EventFrame := items.filterMap (·.origin)

/-- The public events of PMP, as far as the forwarder has got them, are what has been sent. -/
theorem Flows.origins_sublist (h : Flows x s) :
    (origins s.sent).Sublist (s.frames.filter isPublic) := by
  have hread : (s.input.got.filter isPublic).Sublist (s.frames.filter isPublic) := by
    have hgot := h.input.got_sublist
    rw [h.first, List.drop_zero] at hgot
    exact hgot.filter isPublic
  rw [← h.order] at hread
  exact (List.sublist_append_left _ _).trans hread

/-- In every run: what a connection has replayed and got is public, and is made from an event of PMP
    or is a heartbeat with PMP's counts. What it has got from PMP is in PMP's order, each event at
    most once; and if neither the forwarder nor the connection has lagged, and all is delivered,
    it is what is public of PMP's events but for those forwarded before it subscribed. -/
theorem events_flow (x : Extern) (s : State) (hrun : Reachable (step x) .start s) :
    ∀ c ∈ s.conns,
      (∀ item ∈ c.replay.getD [] ++ c.live.got,
        Genuine x s.frames item ∧ item.event.eventType ∈ publicTypes) ∧
      (origins c.live.got).Sublist (s.frames.filter isPublic) ∧
      (s.input.lagged = false → c.live.lagged = false → s.forwarder = .idle →
        s.input.cursor = s.frames.length → c.live.cursor = s.sent.length →
        origins c.live.got =
          (s.frames.filter isPublic).drop (origins (s.sent.take c.live.since)).length) := by
  intro c hc
  have h := flows_run hrun
  have hears := h.conns c hc
  refine ⟨fun item hitem => ?_, ?_, fun hinput hlive hidle hread hgot => ?_⟩
  · have hgenuine := h.genuine item (mem_items_of_conn hc (List.mem_append.mp hitem))
    exact ⟨hgenuine, hgenuine.publicType⟩
  · have hlive : (origins c.live.got).Sublist (origins (s.sent.drop c.live.since)) :=
      hears.filterMap_sublist _
    exact (hlive.trans ((List.drop_sublist _ _).filterMap _)).trans h.origins_sublist
  · have horder := h.order
    rw [hidle, Forwarder.busy, List.append_nil, h.input.got_eq hinput hread, h.first,
      List.drop_zero] at horder
    have hsplit : origins s.sent =
        origins (s.sent.take c.live.since) ++ origins (s.sent.drop c.live.since) := by
      rw [origins, origins, origins, ← List.filterMap_append, List.take_append_drop]
    rw [hears.got_eq hlive hgot, ← horder]
    show _ = (origins s.sent).drop _
    rw [hsplit, List.drop_left]

/-- Two capacities that are soon reached. -/
def sampleExtern : Extern := ⟨fun secs => some secs.toInt, 2, 2, 2⟩

def sampleFrame (eventType id : String) : EventFrame := ⟨eventType, .obj [], id, 0⟩

/-- A client gets an event of a room; a chat message before it is not for it. -/
theorem events_flow_room : ∃ s, Reachable (step sampleExtern) .start s ∧
    (s.conns.map fun c => c.live.got.map fun item => item.event.id) = [["e2"]] ∧
    ∀ c ∈ s.conns, (origins c.live.got).Sublist (s.frames.filter isPublic) := by
  have hrun : ((runFrom (step sampleExtern) .start
      [.connect, .resume 0 none, .frame (sampleFrame "chat.message" "e1"),
        .frame (sampleFrame "room.updated" "e2"), .forward, .forwardAppend 0, .forward,
        .forwardAppend 0, .forwardSend, .deliver 0]).any fun s =>
      decide ((s.conns.map fun c => c.live.got.map fun item => item.event.id) = [["e2"]])) =
        true := by decide +kernel
  obtain ⟨s, hs, hids⟩ := exists_reachable_of_runFrom hrun
  exact ⟨s, hs, of_decide_eq_true hids, fun c hc => (events_flow sampleExtern s hs c hc).2.1⟩

end Ppb.Events.Pipeline
