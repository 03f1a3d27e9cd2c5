import Ppb.Common.Told
import Ppb.Replay.Routes

/-!
# Does the viewer get each stream completely?

`replay_ws_task` keeps one cursor and ends at the first empty page, whatever streams the client
fetches. PMP numbers the batches of a stream on their own, so the cursor of one stream skips
batches of the other, and the end of one ends both.

* `viewer_one_stream`: a client that fetches one stream gets it page by page, to its end.
* `done_once`: only one stream gets to its end.
* `delivers_iff`: the client gets all it fetches just when it fetches one stream.
-/

namespace Ppb.Replay

open Prog

/-! ## What PMP has and what the client asks -/

/-- The sequence of a batch. -/
def sequenceOf (batch : Json) : Option Int64 := (batch.get? "sequence").bind Json.asI64

/-- The batches of a stream: numbered, with ascending positive sequences. -/
structure Track where
  batches : List Json
  numbered : ∀ b ∈ batches, ∃ n, sequenceOf b = some n ∧ 0 < n
  ascending : (batches.filterMap sequenceOf).Pairwise (· < ·)

/-- The batches after `since`. -/
def Track.after (t : Track) (since : Int64) : List Json :=
  t.batches.filter fun b => (sequenceOf b).any (since < ·)

/-- PMP answers for the pair with the batches of the pair after `since`, and at most `limit` of
    them. -/
def Serves (answer : (q : Query) → q.Answer) (round : String) (player : Int32)
    (tracks : Stream → Track) : Prop :=
  ∀ stream since limit, ∃ value,
    answer (.persist stream since limit round player) = .ok value ∧
      batchesOf value = ((tracks stream).after since).take limit.toInt.toNat

/-- A message `fetch` without `since`, for one of the two streams. -/
def IsFetch (message : Message) (stream : Stream) : Prop :=
  ∃ parsed, message = .text (some parsed) ∧ (parsed.get? "type").bind Json.asStr = some "fetch" ∧
    streamOf parsed = some stream ∧ (parsed.get? "since").bind Json.asI64 = none

/-- How often a stream has to be fetched until it answers `done`: once for each page, and once
    more. -/
def fetchesOf (t : Track) : ℕ := (t.batches.length + 499) / 500 + 1

/-! ## What the client gets -/

/-- The messages to the client. -/
def sentOf (h : History Query Query.Answer) : List Json :=
  h.filterMap fun
    | ⟨.send message, _⟩ => some message
    | _ => none

/-- The batches that the client gets for a stream. -/
def receivedFor (stream : Stream) (sent : List Json) : List Json :=
  sent.flatMap fun message =>
    if message.get? "stream" = some (.str stream.toText) then
      ((message.get? "batches").bind Json.asArray).getD []
    else []

/-- The stream answers `done`. -/
def doneFor (stream : Stream) (sent : List Json) : Bool :=
  sent.any fun message => message.get? "stream" == some (.str stream.toText) &&
    message.get? "done" == some (.bool true)

/-- What the viewer sends while it works off the messages. -/
def viewerSends (answer : (q : Query) → q.Answer) (round : String) (player : Int32) (since : Int64)
    (messages : List Message) : List Json :=
  sentOf ((replayWsTask round player since messages).trace answer)

/-- Every stream that is fetched is received, each batch once and in order, and is ended by its
    own `done`. -/
def Delivers (answer : (q : Query) → q.Answer) (tracks : Stream → Track) (round : String)
    (player : Int32) (messages : List Message) (streams : List Stream) : Prop :=
  ∀ stream ∈ streams,
    receivedFor stream (viewerSends answer round player 0 messages) = (tracks stream).batches ∧
      doneFor stream (viewerSends answer round player 0 messages) = true

variable {answer : (q : Query) → q.Answer} {tracks : Stream → Track} {round : String}
  {player : Int32} {since : Int64} {stream : Stream} {message : Message} {messages : List Message}

/-! ## Pages -/

instance lawfulOrderMax_int64 : Std.LawfulOrderMax Int64 := by
  apply Std.LawfulOrderMax.of_max_le_iff
  · intro a b c
    show (if a ≤ b then b else a) ≤ c ↔ a ≤ c ∧ b ≤ c
    split_ifs with hle
    · exact ⟨fun h => ⟨Int64.le_trans hle h, h⟩, fun h => h.2⟩
    · have hle' := (Int64.le_total a b).resolve_left hle
      exact ⟨fun h => ⟨h, Int64.le_trans hle' h⟩, fun h => h.1⟩
  · intro a b
    show (if a ≤ b then b else a) = a ∨ (if a ≤ b then b else a) = b
    split_ifs
    · exact .inr rfl
    · exact .inl rfl

theorem max_zero_of_nonneg (h : 0 ≤ since) : max since 0 = since := by
  show (if since ≤ 0 then 0 else since) = since
  split_ifs with hle
  · exact Int64.le_antisymm h hle
  · rfl

/-- The cursor `since` stands between `before` and `rest`. -/
structure Track.At (t : Track) (since : Int64) (before rest : List Json) : Prop where
  split : t.batches = before ++ rest
  nonneg : 0 ≤ since
  before : ∀ b ∈ before, ∀ n, sequenceOf b = some n → n ≤ since
  rest : ∀ b ∈ rest, ∀ n, sequenceOf b = some n → since < n

variable {t : Track} {before rest : List Json}

theorem Track.at_start (t : Track) : t.At 0 [] t.batches := by
  refine ⟨rfl, Int64.le_refl 0, nofun, fun b hb n hn => ?_⟩
  obtain ⟨m, hm, hpos⟩ := t.numbered b hb
  obtain rfl := Option.some.inj (hm.symm.trans hn)
  exact hpos

/-- PMP answers with the rest. -/
theorem Track.At.after_eq (hat : t.At since before rest) : t.after since = rest := by
  have hbefore : before.filter (fun b => (sequenceOf b).any (since < ·)) = [] := by
    rw [List.filter_eq_nil_iff]
    intro b hb hafter
    obtain ⟨n, hn, hlt⟩ := (Option.any_eq_true _ _).mp hafter
    exact absurd (Int64.lt_of_lt_of_le (of_decide_eq_true hlt) (hat.before b hb n hn))
      Int64.lt_irrefl
  have hrest : rest.filter (fun b => (sequenceOf b).any (since < ·)) = rest := by
    rw [List.filter_eq_self]
    intro b hb
    obtain ⟨n, hn, -⟩ := t.numbered b (by rw [hat.split]; exact List.mem_append_right _ hb)
    exact (Option.any_eq_true _ _).mpr ⟨n, hn, decide_eq_true (hat.rest b hb n hn)⟩
  rw [Track.after, hat.split, List.filter_append, hbefore, hrest, List.nil_append]

/-- The last sequence of a page is the highest. -/
theorem lastSequence_spec (since : Int64) {page : List Json} (hpage : page ≠ [])
    (hnumbered : ∀ b ∈ page, ∃ n, sequenceOf b = some n) :
    (∃ b ∈ page, sequenceOf b = some (lastSequence since page)) ∧
      ∀ b ∈ page, ∀ n, sequenceOf b = some n → n ≤ lastSequence since page := by
  obtain ⟨b, hb⟩ := List.exists_mem_of_ne_nil _ hpage
  obtain ⟨n, hn⟩ := hnumbered b hb
  have hmem : n ∈ page.filterMap sequenceOf := List.mem_filterMap.mpr ⟨b, hb, hn⟩
  cases hmax : (page.filterMap sequenceOf).max? with
  | none =>
    rw [List.max?_eq_none_iff] at hmax
    rw [hmax] at hmem
    cases hmem
  | some last =>
    have hlast : lastSequence since page = last := by
      show (page.filterMap sequenceOf).max?.getD since = last
      rw [hmax, Option.getD_some]
    obtain ⟨hin, hle⟩ := List.max?_eq_some_iff.mp hmax
    rw [hlast]
    refine ⟨List.mem_filterMap.mp hin, fun c hc m hm => ?_⟩
    exact hle m (List.mem_filterMap.mpr ⟨c, hc, hm⟩)

/-- A page moves the cursor behind itself. -/
theorem Track.At.page {page rest' : List Json} (hat : t.At since before (page ++ rest'))
    (hpage : page ≠ []) : t.At (lastSequence since page) (before ++ page) rest' := by
  have hmem : ∀ b ∈ page, b ∈ t.batches := fun b hb => by
    rw [hat.split]
    exact List.mem_append_right _ (List.mem_append_left _ hb)
  have hnumbered : ∀ b ∈ page, ∃ n, sequenceOf b = some n := fun b hb =>
    (t.numbered b (hmem b hb)).imp fun _ h => h.1
  obtain ⟨⟨last, hlast, hn⟩, hle⟩ := lastSequence_spec since hpage hnumbered
  have hascending := List.pairwise_filterMap.mp t.ascending
  rw [hat.split, List.pairwise_append, List.pairwise_append] at hascending
  obtain ⟨-, ⟨-, -, hpages⟩, hbefore⟩ := hascending
  refine ⟨by rw [hat.split, List.append_assoc], ?_, fun b hb n hb' => ?_, fun b hb n hb' => ?_⟩
  · have hlt := hat.rest last (List.mem_append_left _ hlast) _ hn
    exact Int64.le_of_lt (Int64.lt_of_le_of_lt hat.nonneg hlt)
  · rcases List.mem_append.mp hb with hb | hb
    · exact Int64.le_of_lt (hbefore b hb last (List.mem_append_left _ hlast) n hb' _ hn)
    · exact hle b hb n hb'
  · exact hpages last hlast b hb _ hn n hb'

/-! ## One message -/

/-- The answer to a `fetch`, and what follows it. -/
theorem viewerSends_fetch (since : Int64) (messages : List Message)
    (hserves : Serves answer round player tracks) (hfetch : IsFetch message stream) :
    ∃ page, page = ((tracks stream).after (max since 0)).take 500 ∧
      viewerSends answer round player since (message :: messages) =
        batchesMessage stream page (lastSequence since page) ::
          if page = [] then []
          else viewerSends answer round player (lastSequence since page) messages := by
  obtain ⟨parsed, rfl, htype, hstream, hsince⟩ := hfetch
  obtain ⟨value, hvalue, hpage⟩ := hserves stream (max since 0) (max 1 (min maxPage maxPage))
  refine ⟨batchesOf value, hpage, ?_⟩
  unfold viewerSends
  rw [replayWsTask]
  simp only [htype, Option.getD_some, hstream]
  rw [if_neg (by decide), if_neg (by decide)]
  generalize hcursor : ((parsed.get? "since").bind Json.asI64).getD since = cursor
  obtain rfl : since = cursor := by rw [← hcursor, hsince, Option.getD_none]
  rw [fetchBatches, trace_ask, hvalue]
  show _ :: sentOf (Prog.trace answer (if batchesOf value = [] then pure () else _)) = _
  split_ifs <;> rfl

theorem toText_injective {a b : Stream} (h : a.toText = b.toText) : a = b := by
  cases a <;> cases b <;> first | rfl | exact absurd h (by decide)

section Received

variable {other : Stream} {page sent : List Json} {last : Int64}

theorem receivedFor_batches : receivedFor stream (batchesMessage stream page last :: sent) =
    page ++ receivedFor stream sent := by
  have hstream : (batchesMessage stream page last).get? "stream" = some (.str stream.toText) := rfl
  rw [receivedFor, List.flatMap_cons, if_pos hstream]
  rfl

theorem doneFor_batches : doneFor other (batchesMessage stream page last :: sent) = true ↔
    (stream = other ∧ page = []) ∨ doneFor other sent = true := by
  have hstream : (batchesMessage stream page last).get? "stream" = some (.str stream.toText) := rfl
  have hdone : (batchesMessage stream page last).get? "done" = some (.bool page.isEmpty) := rfl
  rw [doneFor, List.any_cons, Bool.or_eq_true, Bool.and_eq_true, hstream, hdone]
  refine or_congr (and_congr ?_ ?_) Iff.rfl
  · rw [beq_iff_eq]
    constructor
    · intro h
      exact toText_injective (Json.str.inj (Option.some.inj h))
    · rintro rfl
      rfl
  · rw [beq_iff_eq, ← List.isEmpty_iff]
    simp

end Received

/-! ## All messages -/

/-- A client that fetches one stream gets what is behind the cursor. -/
theorem viewer_one_stream (hserves : Serves answer round player tracks) :
    ∀ {messages : List Message} {since : Int64} {before rest : List Json},
      (∀ m ∈ messages, IsFetch m stream) → (tracks stream).At since before rest →
      (rest.length + 499) / 500 + 1 ≤ messages.length →
      receivedFor stream (viewerSends answer round player since messages) = rest ∧
        doneFor stream (viewerSends answer round player since messages) = true := by
  intro messages
  induction messages with
  | nil =>
    intro since before rest _ _ henough
    simp at henough
  | cons m messages ih =>
    intro since before rest hfetch hat henough
    obtain ⟨page, hpage, hsends⟩ := viewerSends_fetch since messages hserves
      (hfetch m List.mem_cons_self)
    rw [max_zero_of_nonneg hat.nonneg, hat.after_eq] at hpage
    rw [hsends, receivedFor_batches, doneFor_batches]
    by_cases hempty : page = []
    · have hrest : rest = [] := by
        rw [hempty] at hpage
        simpa using hpage.symm
      rw [if_pos hempty, hempty, hrest]
      exact ⟨rfl, .inl ⟨rfl, rfl⟩⟩
    · rw [if_neg hempty]
      have hsplit : rest = page ++ rest.drop 500 := by rw [hpage, List.take_append_drop]
      rw [hsplit] at hat
      have hlength : (rest.drop 500).length = rest.length - 500 := List.length_drop
      have hpos : 0 < rest.length := by
        rw [List.length_pos_iff]
        rintro rfl
        exact hempty (by rw [hpage, List.take_nil])
      rw [List.length_cons] at henough
      obtain ⟨hreceived, hdone⟩ := ih (fun m hm => hfetch m (List.mem_cons_of_mem _ hm))
        (hat.page hempty) (by rw [hlength]; omega)
      rw [hreceived, ← hsplit]
      exact ⟨rfl, .inr hdone⟩

/-- Only one stream gets to its end. -/
theorem done_once (hserves : Serves answer round player tracks) {a b : Stream} :
    ∀ {messages : List Message} {streams : List Stream} {since : Int64},
      List.Forall₂ IsFetch messages streams →
      doneFor a (viewerSends answer round player since messages) = true →
      doneFor b (viewerSends answer round player since messages) = true → a = b := by
  intro messages
  induction messages with
  | nil =>
    intro streams since _ ha _
    cases ha
  | cons m messages ih =>
    intro streams since hfetch ha hb
    cases hfetch with
    | @cons _ stream _ streams hm hrest =>
      obtain ⟨page, -, hsends⟩ := viewerSends_fetch since messages hserves hm
      rw [hsends, doneFor_batches] at ha hb
      by_cases hempty : page = []
      · simp only [hempty, if_true] at ha hb
        have hnone : ∀ s, ¬ doneFor s [] = true := fun s => Bool.false_ne_true
        rw [← (ha.resolve_right (hnone a)).1, ← (hb.resolve_right (hnone b)).1]
      · rw [if_neg hempty] at ha hb
        have hno : ∀ s, ¬ (stream = s ∧ page = []) := fun s h => hempty h.2
        exact ih hrest (ha.resolve_left (hno a)) (hb.resolve_left (hno b))

theorem forall_of_forall₂ {streams : List Stream} (hfetch : List.Forall₂ IsFetch messages streams)
    (hall : ∀ s ∈ streams, s = stream) :
    (∀ m ∈ messages, IsFetch m stream) ∧ streams.count stream = messages.length := by
  induction hfetch with
  | nil => exact ⟨nofun, rfl⟩
  | @cons m s messages streams hm _ ih =>
    obtain rfl := hall s List.mem_cons_self
    obtain ⟨hrest, hcount⟩ := ih fun s' hs' => hall s' (List.mem_cons_of_mem _ hs')
    refine ⟨List.forall_mem_cons.mpr ⟨hm, hrest⟩, ?_⟩
    rw [List.count_cons_self, hcount, List.length_cons]

/-- A client that sends only fetches, and for each stream as many as it takes to reach the end of
    it, gets all it fetches just when it fetches one stream. Of PMP only what it answers for the
    pair of the connection is assumed. -/
theorem delivers_iff (answer : (q : Query) → q.Answer) (tracks : Stream → Track) (round : String)
    (player : Int32) (hserves : Serves answer round player tracks) (messages : List Message)
    (streams : List Stream) (hfetch : List.Forall₂ IsFetch messages streams)
    (henough : ∀ stream ∈ streams, fetchesOf (tracks stream) ≤ streams.count stream) :
    Delivers answer tracks round player messages streams ↔
      ∀ a ∈ streams, ∀ b ∈ streams, a = b := by
  constructor
  · intro hdelivers a ha b hb
    exact done_once hserves hfetch (hdelivers a ha).2 (hdelivers b hb).2
  · intro hone stream hstream
    obtain ⟨hmessages, hcount⟩ := forall_of_forall₂ hfetch fun s hs => hone s hs stream hstream
    have hlength := henough stream hstream
    rw [hcount] at hlength
    exact viewer_one_stream hserves hmessages (tracks stream).at_start hlength

/-- One batch of each stream; PMP numbers both from 1. -/
def sampleTracks : Stream → Track := fun stream =>
  ⟨[.obj [("kind", .str stream.toText), ("sequence", .ofInt64 1)]],
    fun b hb => ⟨1, by rw [List.mem_singleton.mp hb]; exact ⟨by rfl, by decide⟩⟩, by cases stream <;> decide⟩

/-- A PMP that has these batches of player 5 in round `r`, and no other pair. -/
def sampleServer : (q : Query) → q.Answer
  | .persist stream since limit round player =>
    if round = "r" ∧ player = 5 then
      .ok (.arr (((sampleTracks stream).after since).take limit.toInt.toNat))
    else .error (.command "persist" "NOT_FOUND" "no such round")
  | .visibility .. => .ok none
  | .override .. => .ok none
  | .findUser _ => .ok none
  | .listFriends _ => .ok []
  | .acl .. => .ok none
  | .linkByHash _ => .ok none
  | .now => 0
  | .revokeLink _ => .error .other
  | .send _ => ()

theorem serves_sampleServer : Serves sampleServer "r" 5 sampleTracks := by
  intro stream since limit
  refine ⟨.arr (((sampleTracks stream).after since).take limit.toInt.toNat), ?_, rfl⟩
  simp only [sampleServer, and_self, if_true]

/-- `fetch` for a stream. -/
def sampleFetch (stream : Stream) : Message :=
  .text (some (.obj [("stream", .str stream.toText), ("type", .str "fetch")]))

theorem isFetch_sampleFetch {stream : Stream} (h : stream ≠ .rounds) :
    IsFetch (sampleFetch stream) stream := by
  refine ⟨_, rfl, rfl, ?_, rfl⟩
  cases stream with
  | rounds => exact absurd rfl h
  | touches => rfl
  | judges => rfl

/-- Two fetches of the touches bring its batch and the end. -/
theorem delivers_iff_touches :
    Delivers sampleServer sampleTracks "r" 5 [sampleFetch .touches, sampleFetch .touches]
      [.touches, .touches] :=
  (delivers_iff sampleServer sampleTracks "r" 5 serves_sampleServer _ _
    (.cons (isFetch_sampleFetch (by decide)) (.cons (isFetch_sampleFetch (by decide)) .nil))
    (by decide)).mpr (by decide)

/-- Touches and judges in turn: the batch of the judges has the sequence of the touches, so it is
    skipped, and the end of the judges comes before that of the touches. -/
theorem not_delivers_both :
    ¬ Delivers sampleServer sampleTracks "r" 5
        [sampleFetch .touches, sampleFetch .judges, sampleFetch .touches, sampleFetch .judges]
        [.touches, .judges, .touches, .judges] := by
  intro hdelivers
  have hjudges := (hdelivers .judges (by decide)).1
  exact absurd hjudges (by decide +kernel)

end Ppb.Replay
