import Ppb.Common.Json
import Ppb.Common.Trace

/-!
# The live stream of a room (`live/routes.rs`)

`live_ws_task` forwards the frames of one room to a client. The events of the frames wait in a
buffer until the next tick; a `round_switch` is sent at once, when the first frame of the round
arrives. So a round may be announced while events of the round before it are still waiting.

* `events_once`: every event is sent once, in the order of arrival.
* `marks_run`: if nothing of the old round is waiting when a round is announced, announcements and
  events are sent in the order of arrival.
* `live_in_order`: these two for whole runs, and what they mean for a single event.

Deviation: the messages on the socket are values of `LiveMessage`; `toJson` is their text.
-/

namespace Ppb.Live

open Trace

/-! ## Messages -/

/-- `StreamFrame` (pmp/openuds/types.rs:39-50). -/
structure StreamFrame where
  stream : String
  userId : Int64
  frames : Json
  sequence : Option UInt64
  room : Option String
  round : Option String
  timestamp : Option Int64
  deriving DecidableEq

/-- The event of a frame (live/routes.rs:94-103). -/
structure LiveEvent where
  judges : Bool
  player : Int64
  sequence : Option UInt64
  round : Option String
  timestamp : Option Int64
  frames : Json
  deriving DecidableEq

/-- What is sent to the client. -/
inductive LiveMessage where
  | sequenceGap (stream : String) (expected : UInt64)
  | lagged
  | roundSwitch (round : String)
  | event (e : LiveEvent)
  | heartbeat
  deriving DecidableEq

def LiveEvent.eventType (e : LiveEvent) : String := if e.judges then "judges" else "touches"

def LiveEvent.toJson (e : LiveEvent) : Json :=
  .obj [(if e.judges then "judges" else "frames", e.frames), ("player", .ofInt64 e.player),
    ("round", e.round.elim .null .str),
    ("sequence", e.sequence.elim .null fun n => .num (.posInt n)),
    ("timestamp", e.timestamp.elim .null .ofInt64), ("type", .str e.eventType)]

def LiveMessage.toJson : LiveMessage → Json
  | .sequenceGap stream expected => .obj [("expected", .num (.posInt expected)),
      ("reason", .str "sequence_gap"), ("stream", .str stream), ("type", .str "resync")]
  | .lagged => .obj [("reason", .str "lagged"), ("type", .str "resync")]
  | .roundSwitch round => .obj [("round", .str round), ("type", .str "round_switch")]
  | .event e => e.toJson
  | .heartbeat => .obj [("type", .str "heartbeat")]

/-! ## The task -/

/-- What the task waits for. -/
inductive Input where
  | frame (f : StreamFrame)
  /-- the receiver has missed frames -/
  | lagged
  /-- there are no more frames -/
  | closed
  | tick
  /-- a text message of the client; `none` if it is not JSON -/
  | text (parsed : Option Json)
  /-- a message of another kind -/
  | other
  /-- the client has gone -/
  | close

/-- The variables of `live_ws_task`, and what it has sent. -/
structure LiveState where
  players : Option (List Int64)
  buffer : List LiveEvent
  lastSeq : List (String × UInt64)
  lastRound : Option String
  sent : List LiveMessage
  running : Bool

def LiveState.start : LiveState := ⟨none, [], [], none, [], true⟩

namespace LiveState

def send (s : LiveState) (message : LiveMessage) : LiveState :=
  { s with sent := s.sent ++ [message] }

/-- The check for gaps (live/routes.rs:61-78). -/
def noteSequence (s : LiveState) (f : StreamFrame) : LiveState :=
  match f.sequence with
  | none => s
  | some seq =>
    let next := { s with lastSeq := Fields.insert f.stream seq s.lastSeq }
    match Fields.get? s.lastSeq f.stream with
    | some p => if p + 1 < seq then next.send (.sequenceGap f.stream (p + 1)) else next
    | none => next

/-- The announcement of a round (live/routes.rs:79-89). -/
def noteRound (s : LiveState) (f : StreamFrame) : LiveState :=
  match f.round with
  | none => s
  | some round =>
    if s.lastRound = some round then s
    else { s with lastRound := some round }.send (.roundSwitch round)

end LiveState

/-- The filter of the client (live/routes.rs:90-94). -/
def passes (players : Option (List Int64)) (f : StreamFrame) : Bool :=
  match players with
  | some set => set.contains f.userId
  | none => true

def eventOf (f : StreamFrame) : LiveEvent :=
  ⟨f.stream == "judges", f.userId, f.sequence, f.round, f.timestamp, f.frames⟩

/-- A frame (live/routes.rs:52-104). -/
def LiveState.onFrame (room : String) (s : LiveState) (f : StreamFrame) : LiveState :=
  if f.room ≠ some room then s
  else
    let s := (s.noteSequence f).noteRound f
    if passes s.players f then { s with buffer := s.buffer ++ [eventOf f] } else s

/-- The players of a `set_players` (live/routes.rs:126-129); other messages leave them. -/
def playersAfter (parsed : Option Json) (players : Option (List Int64)) : Option (List Int64) :=
  match parsed with
  | some v =>
    if (v.get? "type").bind Json.asStr = some "set_players" then
      ((v.get? "players").bind Json.asArray).map (·.filterMap Json.asI64)
    else players
  | none => players

/-- A text message of the client (live/routes.rs:122-136). -/
def LiveState.onText (s : LiveState) (parsed : Option Json) : LiveState :=
  { s with
    players := playersAfter parsed s.players
    lastSeq := if (parsed.bind (·.get? "type")).bind Json.asStr = some "resync" then [] else s.lastSeq }

/-- One turn of the loop; the task has ended if it is not running. -/
def step (room : String) (s : LiveState) (l : Input) : Option LiveState :=
  if s.running = false then none
  else
    match l with
    | .frame f => some (s.onFrame room f)
    | .lagged => some (s.send .lagged)
    | .closed => some { s with running := false }
    | .tick => some { s with
        buffer := []
        sent := s.sent ++ s.buffer.map .event ++ [.heartbeat] }
    | .text parsed => some (s.onText parsed)
    | .other => some s
    | .close => some { s with running := false }

/-! ## What should be sent -/

/-- The events of the frames that pass the filter when they arrive. -/
def arrivals (room : String) : Option (List Int64) → List Input → List LiveEvent
  | _, [] => []
  | players, .frame f :: rest =>
    (if f.room = some room ∧ passes players f then [eventOf f] else []) ++
      arrivals room players rest
  | players, .text parsed :: rest => arrivals room (playersAfter parsed players) rest
  | players, _ :: rest => arrivals room players rest

/-- The announcement of the round of a frame after a frame of the round `last`. -/
def announced (last : Option String) (f : StreamFrame) : List LiveMessage :=
  match f.round with
  | some round => if last = some round then [] else [.roundSwitch round]
  | none => []

/-- The announcements of the rounds and the events that belong to a round, as they arrive. -/
def inArrivalOrder (room : String) : Option (List Int64) → Option String → List Input →
    List LiveMessage
  | _, _, [] => []
  | players, last, .frame f :: rest =>
    if f.room = some room then
      announced last f ++ (if passes players f ∧ f.round.isSome then [.event (eventOf f)] else []) ++
        inArrivalOrder room players (f.round.or last) rest
    else inArrivalOrder room players last rest
  | players, last, .text parsed :: rest => inArrivalOrder room (playersAfter parsed players) last rest
  | players, last, _ :: rest => inArrivalOrder room players last rest

/-- The events on the socket. -/
def eventsOf (sent : List LiveMessage) : List LiveEvent :=
  sent.filterMap fun
    | .event e => some e
    | _ => none

/-- The round that is announced after `last` and these messages. -/
def lastAnnounced (last : Option String) (sent : List LiveMessage) : Option String :=
  sent.foldl (fun last message =>
    match message with
    | .roundSwitch round => some round
    | _ => last) last

/-- An announcement, or an event that belongs to a round. -/
def LiveMessage.marks : LiveMessage → Bool
  | .roundSwitch _ => true
  | .event e => e.round.isSome
  | _ => false

/-- When a frame announces a round, no event of a round is waiting. -/
def Drained (room : String) (s : LiveState) : Input → Prop
  | .frame f => f.room = some room → announced s.lastRound f ≠ [] → ∀ e ∈ s.buffer, e.round = none
  | _ => True

variable {room : String} {s s' : LiveState} {f : StreamFrame} {l : Input} {inputs : List Input}

/-! ## One step -/

/-- A message about a gap, or nothing. -/
def GapOnly (gap : List LiveMessage) : Prop := gap = [] ∨ ∃ stream n, gap = [.sequenceGap stream n]

theorem noteSequence_spec (s : LiveState) (f : StreamFrame) : ∃ lastSeq gap, GapOnly gap ∧
    s.noteSequence f = { s with lastSeq := lastSeq, sent := s.sent ++ gap } := by
  unfold LiveState.noteSequence
  cases f.sequence with
  | none => exact ⟨s.lastSeq, [], .inl rfl, by rw [List.append_nil]⟩
  | some seq =>
    dsimp only
    split
    · split_ifs
      · exact ⟨_, _, .inr ⟨_, _, rfl⟩, rfl⟩
      · exact ⟨_, [], .inl rfl, by rw [List.append_nil]⟩
    · exact ⟨_, [], .inl rfl, by rw [List.append_nil]⟩

theorem noteRound_eq (s : LiveState) (f : StreamFrame) : s.noteRound f =
    { s with lastRound := f.round.or s.lastRound, sent := s.sent ++ announced s.lastRound f } := by
  unfold LiveState.noteRound announced
  cases f.round with
  | none => simp
  | some round =>
    dsimp only
    by_cases hsame : s.lastRound = some round
    · rw [if_pos hsame, if_pos hsame, List.append_nil, Option.some_or, ← hsame]
    · rw [if_neg hsame, if_neg hsame]
      rfl

/-- What a frame of the room does. -/
theorem onFrame_spec (hroom : f.room = some room) : ∃ lastSeq gap, GapOnly gap ∧
    s.onFrame room f = { s with
      buffer := s.buffer ++ if passes s.players f then [eventOf f] else []
      lastSeq := lastSeq
      lastRound := f.round.or s.lastRound
      sent := s.sent ++ gap ++ announced s.lastRound f } := by
  obtain ⟨lastSeq, gap, hgap, hseq⟩ := noteSequence_spec s f
  refine ⟨lastSeq, gap, hgap, ?_⟩
  unfold LiveState.onFrame
  rw [if_neg (not_not.mpr hroom), hseq, noteRound_eq]
  dsimp only
  split_ifs
  · rfl
  · rw [List.append_nil]

theorem onFrame_other (hroom : ¬ f.room = some room) : s.onFrame room f = s := if_pos hroom

/-- What a step sends and keeps waiting, and how the rest goes on. -/
theorem step_running (h : step room s l = some s') : s.running = true := by
  unfold step at h
  by_contra hrunning
  rw [if_pos (Bool.not_eq_true _ ▸ hrunning)] at h
  cases h

theorem GapOnly.eventsOf {gap : List LiveMessage} (h : GapOnly gap) : eventsOf gap = [] := by
  rcases h with rfl | ⟨stream, n, rfl⟩ <;> rfl

theorem GapOnly.marks {gap : List LiveMessage} (h : GapOnly gap) :
    gap.filter LiveMessage.marks = [] := by
  rcases h with rfl | ⟨stream, n, rfl⟩ <;> rfl

theorem eventsOf_append (a b : List LiveMessage) : eventsOf (a ++ b) = eventsOf a ++ eventsOf b :=
  List.filterMap_append

theorem eventsOf_announced (last : Option String) (f : StreamFrame) :
    eventsOf (announced last f) = [] := by
  unfold announced
  split
  · split_ifs <;> rfl
  · rfl

theorem eventsOf_events (buffer : List LiveEvent) : eventsOf (buffer.map .event) = buffer := by
  induction buffer with
  | nil => rfl
  | cons e buffer ih => exact congrArg (e :: ·) ih

/-! ## Every event once -/

/-- What is sent and what is waiting, one step. -/
theorem events_step (h : step room s l = some s') (rest : List Input) :
    eventsOf s'.sent ++ s'.buffer ++ arrivals room s'.players rest =
      eventsOf s.sent ++ s.buffer ++ arrivals room s.players (l :: rest) := by
  unfold step at h
  rw [if_neg (by rw [step_running h]; decide)] at h
  cases l with
  | frame f =>
    obtain rfl := Option.some.inj h
    by_cases hroom : f.room = some room
    · obtain ⟨lastSeq, gap, hgap, heq⟩ := onFrame_spec (s := s) hroom
      rw [heq, arrivals]
      simp only [eventsOf_append, hgap.eventsOf, eventsOf_announced, List.append_nil, hroom,
        true_and, List.append_assoc]
    · rw [onFrame_other hroom, arrivals, if_neg fun h => hroom h.1, List.nil_append]
  | tick =>
    obtain rfl := Option.some.inj h
    have hbeat : eventsOf [.heartbeat] = [] := rfl
    simp only [eventsOf_append, eventsOf_events, hbeat, List.append_nil]
    rfl
  | lagged =>
    obtain rfl := Option.some.inj h
    have hlagged : eventsOf [.lagged] = [] := rfl
    simp only [LiveState.send, eventsOf_append, hlagged, List.append_nil]
    rfl
  | text parsed =>
    obtain rfl := Option.some.inj h
    rfl
  | closed | other | close =>
    obtain rfl := Option.some.inj h
    rfl

/-- Every event is sent once, in the order of arrival. -/
theorem events_once {ok : LiveState → Input → Prop} (h : Follows (step room) ok s inputs s') :
    eventsOf s'.sent ++ s'.buffer = eventsOf s.sent ++ s.buffer ++ arrivals room s.players inputs := by
  induction h with
  | nil => rw [arrivals, List.append_nil]
  | cons _ hstep _ ih => rw [ih, events_step hstep]

/-- The next tick sends what is waiting. -/
theorem tick_flushes (hrunning : s.running = true) :
    ∃ s', step room s .tick = some s' ∧ eventsOf s'.sent = eventsOf s.sent ++ s.buffer := by
  refine ⟨_, if_neg (by rw [hrunning]; decide), ?_⟩
  have hbeat : eventsOf [.heartbeat] = [] := rfl
  simp only [eventsOf_append, eventsOf_events, hbeat, List.append_nil]

/-! ## Rounds -/

/-- What is waiting of the announced rounds. -/
def waiting (buffer : List LiveEvent) : List LiveMessage :=
  (buffer.map LiveMessage.event).filter LiveMessage.marks

theorem waiting_append (a b : List LiveEvent) : waiting (a ++ b) = waiting a ++ waiting b := by
  rw [waiting, List.map_append, List.filter_append]
  rfl

theorem waiting_of_none {buffer : List LiveEvent} (h : ∀ e ∈ buffer, e.round = none) :
    waiting buffer = [] := by
  rw [waiting, List.filter_eq_nil_iff]
  intro m hm
  obtain ⟨e, he, rfl⟩ := List.mem_map.mp hm
  rw [LiveMessage.marks, h e he]
  decide

theorem marks_announced (last : Option String) (f : StreamFrame) :
    (announced last f).filter LiveMessage.marks = announced last f := by
  unfold announced
  split
  · split_ifs <;> rfl
  · rfl

/-- Announcements and events, one step. -/
theorem marks_step (hok : Drained room s l) (h : step room s l = some s') (rest : List Input) :
    s'.sent.filter LiveMessage.marks ++ waiting s'.buffer ++
        inArrivalOrder room s'.players s'.lastRound rest =
      s.sent.filter LiveMessage.marks ++ waiting s.buffer ++
        inArrivalOrder room s.players s.lastRound (l :: rest) := by
  unfold step at h
  rw [if_neg (by rw [step_running h]; decide)] at h
  cases l with
  | frame f =>
    obtain rfl := Option.some.inj h
    by_cases hroom : f.room = some room
    · obtain ⟨lastSeq, gap, hgap, heq⟩ := onFrame_spec (s := s) hroom
      have hnew : waiting (if passes s.players f then [eventOf f] else []) =
          if passes s.players f ∧ f.round.isSome then [.event (eventOf f)] else [] := by
        by_cases hpass : passes s.players f = true
        · rw [if_pos hpass]
          cases hround : f.round <;> simp [waiting, LiveMessage.marks, eventOf, hround, hpass]
        · rw [if_neg hpass, if_neg fun hboth => hpass hboth.1]
          rfl
      -- an announcement overtakes what is waiting, and that is nothing then
      have hswap : announced s.lastRound f ++ waiting s.buffer =
          waiting s.buffer ++ announced s.lastRound f := by
        by_cases hnone : announced s.lastRound f = []
        · rw [hnone, List.append_nil, List.nil_append]
        · rw [waiting_of_none (hok hroom hnone), List.append_nil, List.nil_append]
      rw [heq, inArrivalOrder, if_pos hroom]
      simp only [List.filter_append, hgap.marks, marks_announced, waiting_append, hnew,
        List.append_nil]
      rw [List.append_assoc (List.filter _ s.sent), ← List.append_assoc (announced _ _), hswap]
      simp only [List.append_assoc]
    · rw [onFrame_other hroom, inArrivalOrder, if_neg hroom]
  | tick =>
    obtain rfl := Option.some.inj h
    have hbeat : [LiveMessage.heartbeat].filter LiveMessage.marks = [] := rfl
    have hnone : waiting [] = [] := rfl
    simp only [List.filter_append, hbeat, hnone, List.append_nil]
    rfl
  | lagged =>
    obtain rfl := Option.some.inj h
    have hlagged : [LiveMessage.lagged].filter LiveMessage.marks = [] := rfl
    simp only [LiveState.send, List.filter_append, hlagged, List.append_nil]
    rfl
  | text parsed =>
    obtain rfl := Option.some.inj h
    rfl
  | closed | other | close =>
    obtain rfl := Option.some.inj h
    rfl

/-- Announcements and events are sent in the order of arrival. -/
theorem marks_run (h : Follows (step room) (Drained room) s inputs s') :
    s'.sent.filter LiveMessage.marks ++ waiting s'.buffer = s.sent.filter LiveMessage.marks ++
      waiting s.buffer ++ inArrivalOrder room s.players s.lastRound inputs := by
  induction h with
  | nil => rw [inArrivalOrder, List.append_nil]
  | cons hok hstep _ ih => rw [ih, marks_step hok hstep]

/-- Every event of a round follows the announcement of that round and no later one. -/
def Placed : Option String → List LiveMessage → Prop
  | _, [] => True
  | _, .roundSwitch round :: rest => Placed (some round) rest
  | last, .event e :: rest => (∀ r, e.round = some r → last = some r) ∧ Placed last rest
  | last, _ :: rest => Placed last rest

theorem placed_append {a b : List LiveMessage} : ∀ {last : Option String},
    Placed last (a ++ b) ↔ Placed last a ∧ Placed (lastAnnounced last a) b := by
  induction a with
  | nil =>
    intro last
    show Placed last b ↔ True ∧ Placed last b
    rw [true_and]
  | cons m a ih =>
    intro last
    cases m with
    | event e =>
      show (_ ∧ Placed last (a ++ b)) ↔ (_ ∧ Placed last a) ∧ _
      rw [ih, and_assoc]
      rfl
    | roundSwitch round => exact ih
    | sequenceGap stream n | lagged | heartbeat => exact ih

/-- What is waiting belongs to the round that was announced last. -/
structure Current (s : LiveState) : Prop where
  placed : Placed none s.sent
  last : lastAnnounced none s.sent = s.lastRound
  buffer : ∀ e ∈ s.buffer, ∀ r, e.round = some r → s.lastRound = some r

theorem lastAnnounced_append (last : Option String) (a b : List LiveMessage) :
    lastAnnounced last (a ++ b) = lastAnnounced (lastAnnounced last a) b := List.foldl_append

theorem lastAnnounced_announced (last : Option String) (f : StreamFrame) :
    lastAnnounced last (announced last f) = f.round.or last := by
  unfold announced
  cases f.round with
  | none => rfl
  | some round =>
    dsimp only
    split_ifs with hsame
    · rw [hsame]
      rfl
    · rfl

theorem placed_announced (last last' : Option String) (f : StreamFrame) :
    Placed last' (announced last f) := by
  unfold announced
  split
  · split_ifs <;> trivial
  · trivial

theorem GapOnly.placed {gap : List LiveMessage} (h : GapOnly gap) (last : Option String) :
    Placed last gap ∧ lastAnnounced last gap = last := by
  rcases h with rfl | ⟨stream, n, rfl⟩ <;> exact ⟨trivial, rfl⟩

theorem placed_events {last : Option String} {buffer : List LiveEvent}
    (h : ∀ e ∈ buffer, ∀ r, e.round = some r → last = some r) :
    Placed last (buffer.map .event) ∧ lastAnnounced last (buffer.map .event) = last := by
  induction buffer with
  | nil => exact ⟨trivial, rfl⟩
  | cons e buffer ih =>
    obtain ⟨hplaced, hlast⟩ := ih fun e' he' => h e' (List.mem_cons_of_mem _ he')
    exact ⟨⟨h e List.mem_cons_self, hplaced⟩, hlast⟩

theorem Current.frame (hs : Current s) (hroom : f.room = some room)
    (hok : Drained room s (.frame f)) : Current (s.onFrame room f) := by
  obtain ⟨lastSeq, gap, hgap, heq⟩ := onFrame_spec (s := s) hroom
  obtain ⟨hplaced, hlast⟩ := hgap.placed s.lastRound
  rw [heq]
  refine ⟨?_, ?_, fun e he r hr => ?_⟩
  · rw [List.append_assoc, placed_append, placed_append, hs.last, hlast]
    exact ⟨hs.placed, hplaced, placed_announced _ _ f⟩
  · rw [lastAnnounced_append, lastAnnounced_append, hs.last, hlast, lastAnnounced_announced]
  · rcases List.mem_append.mp he with he | he
    · by_cases hnone : announced s.lastRound f = []
      · have hsame := lastAnnounced_announced s.lastRound f
        rw [hnone] at hsame
        rw [← hsame]
        exact hs.buffer e he r hr
      · rw [hok hroom hnone e he] at hr
        cases hr
    · split_ifs at he
      · rw [List.mem_singleton.mp he] at hr
        show f.round.or s.lastRound = some r
        rw [show f.round = some r from hr, Option.some_or]
      · cases he

theorem Current.step (hs : Current s) (hok : Drained room s l) (h : step room s l = some s') :
    Current s' := by
  unfold Live.step at h
  rw [if_neg (by rw [step_running h]; decide)] at h
  cases l with
  | frame f =>
    obtain rfl := Option.some.inj h
    by_cases hroom : f.room = some room
    · exact hs.frame hroom hok
    · rw [onFrame_other hroom]
      exact hs
  | tick =>
    obtain rfl := Option.some.inj h
    obtain ⟨hplaced, hlast⟩ := placed_events hs.buffer
    refine ⟨?_, ?_, nofun⟩
    · rw [List.append_assoc, placed_append, placed_append, hs.last]
      exact ⟨hs.placed, hplaced, trivial⟩
    · rw [lastAnnounced_append, lastAnnounced_append, hs.last, hlast]
      rfl
  | lagged =>
    obtain rfl := Option.some.inj h
    refine ⟨placed_append.mpr ⟨hs.placed, trivial⟩, ?_, hs.buffer⟩
    show lastAnnounced none (s.sent ++ [.lagged]) = s.lastRound
    rw [lastAnnounced_append, hs.last]
    rfl
  | text parsed | closed | other | close =>
    obtain rfl := Option.some.inj h
    exact ⟨hs.placed, hs.last, hs.buffer⟩

theorem Current.run (hs : Current s) (h : Follows (Live.step room) (Drained room) s inputs s') :
    Current s' := by
  induction h with
  | nil => exact hs
  | cons hok hstep _ ih => exact ih (hs.step hok hstep)

/-! ## Runs -/

/-- The events of the frames that have arrived are sent once, in the order of arrival, the last ones
    at the next tick; announcements and events of rounds are sent in the order of arrival; and the
    round that was announced last before an event is the round of the event. -/
def InOrder (room : String) (inputs : List Input) (s : LiveState) : Prop :=
  eventsOf s.sent ++ s.buffer = arrivals room none inputs ∧
    (s.running = true → ∃ s', step room s .tick = some s' ∧
      eventsOf s'.sent = arrivals room none inputs) ∧
    s.sent.filter LiveMessage.marks ++ waiting s.buffer = inArrivalOrder room none none inputs ∧
    ∀ before e after r, s.sent = before ++ .event e :: after → e.round = some r →
      lastAnnounced none before = some r

/-- If no event of a round is waiting when a frame announces a round, the stream is in order. -/
theorem live_in_order (room : String) (inputs : List Input) (s : LiveState)
    (hrun : Follows (step room) (Drained room) .start inputs s) : InOrder room inputs s := by
  have hevents : eventsOf s.sent ++ s.buffer = arrivals room none inputs := events_once hrun
  refine ⟨hevents, fun hrunning => ?_, marks_run hrun, fun before e after r hsent hr => ?_⟩
  · have hticks : ∃ s', step room s .tick = some s' ∧ eventsOf s'.sent = eventsOf s.sent ++ s.buffer :=
      tick_flushes hrunning
    obtain ⟨s', hstep, hflush⟩ := hticks
    exact ⟨s', hstep, hflush.trans hevents⟩
  · have hstart : Current .start := ⟨trivial, rfl, nofun⟩
    have hcurrent := hstart.run hrun
    have hplaced := hcurrent.placed
    rw [hsent, placed_append] at hplaced
    exact hplaced.2.1 r hr

/-- A frame of the room `R` in this round. -/
def sampleFrame (player : Int64) (round : String) : StreamFrame :=
  ⟨"touches", player, .arr [], none, some "R", some round, none⟩

/-- A tick between the two rounds. -/
theorem live_in_order_tick :
    ∃ s, Follows (step "R") (Drained "R") .start
        [.frame (sampleFrame 5 "r1"), .tick, .frame (sampleFrame 5 "r2"), .tick] s ∧
      InOrder "R" [.frame (sampleFrame 5 "r1"), .tick, .frame (sampleFrame 5 "r2"), .tick] s := by
  have hrun : ∃ s, Follows (step "R") (Drained "R") .start
      [.frame (sampleFrame 5 "r1"), .tick, .frame (sampleFrame 5 "r2"), .tick] s :=
    ⟨_, .cons (fun _ _ => nofun) rfl (.cons trivial rfl (.cons (fun _ _ => nofun) rfl
      (.cons trivial rfl .nil)))⟩
  obtain ⟨s, hs⟩ := hrun
  exact ⟨s, hs, live_in_order "R" _ s hs⟩

/-- The second round begins before the tick: its announcement overtakes the event of the first. -/
theorem not_in_order_overtaken :
    ∃ s, Follows (step "R") (fun _ _ => True) .start
        [.frame (sampleFrame 5 "r1"), .frame (sampleFrame 5 "r2"), .tick] s ∧
      ¬ InOrder "R" [.frame (sampleFrame 5 "r1"), .frame (sampleFrame 5 "r2"), .tick] s := by
  refine ⟨_, .cons trivial rfl (.cons trivial rfl (.cons trivial rfl .nil)), fun horder => ?_⟩
  have hround := horder.2.2.2 [.roundSwitch "r1", .roundSwitch "r2"] (eventOf (sampleFrame 5 "r1"))
    [.event (eventOf (sampleFrame 5 "r2")), .heartbeat] "r1" rfl rfl
  exact absurd hround (by decide)

end Ppb.Live
