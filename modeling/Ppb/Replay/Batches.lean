import Ppb.Replay.Viewer

/-!
# Does `fetch_all_batches` fetch all batches?

The loop ends at an empty page, at a page that does not move the cursor, and when the number
of batches so far is not a multiple of the page size. As every page before the last is full,
the last test is one on the last page alone.

* `fetchAllFrom_complete`: from a cursor between two batches the loop brings the rest.
* `fetchAllFrom_ascends`: whatever the answers are, the cursor only moves forward; this is also
  what makes the loop end (`fetchAllFrom` is defined by recursion on it).
* `fetch_all_batches_complete`: both, for a PMP with any number of batches.
-/

namespace Ppb.Replay

open Prog

/-! ## The batches of a player in a round -/

/-- The batch belongs to a player in a round. -/
def IsOf (round : String) (player : Int32) (batch : Json) : Prop :=
  batch.get? "round_uuid" = some (.str round) ∧
    (batch.get? "player_id").bind Json.asI64 = some player.toInt64

instance (round : String) (player : Int32) (batch : Json) : Decidable (IsOf round player batch) :=
  inferInstanceAs (Decidable (_ ∧ _))

/-- The batches of a stream that belong to a player in a round. -/
def Track.ofPair (t : Track) (round : String) (player : Int32) : Track where
  batches := t.batches.filter fun b => IsOf round player b
  numbered := fun b hb => t.numbered b (List.mem_of_mem_filter hb)
  ascending := t.ascending.sublist (List.filter_sublist.filterMap sequenceOf)

/-- PMP answers with the batches of the pair after `since`, and at most `limit` of them. -/
def ServesPairs (answer : (q : Query) → q.Answer) (tracks : Stream → Track) : Prop :=
  ∀ stream since limit round player, ∃ value,
    answer (.persist stream since limit round player) = .ok value ∧
      batchesOf value = (((tracks stream).ofPair round player).after since).take limit.toInt.toNat

/-- The cursors of the requests that were made. -/
def sincesOf (h : History Query Query.Answer) : List Int64 :=
  h.filterMap fun e => match e.1 with
    | .persist _ since _ _ _ => some since
    | _ => none

variable {answer : (q : Query) → q.Answer} {tracks : Stream → Track} {stream : Stream}
  {round : String} {player : Int32} {since : Int64} {t : Track} {all before rest : List Json}
  {h : History Query Query.Answer}

/-! ## Completeness -/

/-- One round of the loop for a PMP that answers. -/
theorem eval_fetchAllFrom {value : Json}
    (hanswer : answer (.persist stream (max since 0) maxPage round player) = .ok value) :
    (fetchAllFrom stream round player all since).eval answer =
      if batchesOf value = [] then .ok all
      else if lastSequence since (batchesOf value) ≤ since then .ok (all ++ batchesOf value)
      else if (all ++ batchesOf value).length % 500 ≠ 0 then .ok (all ++ batchesOf value)
      else (fetchAllFrom stream round player (all ++ batchesOf value)
        (lastSequence since (batchesOf value))).eval answer := by
  have hlimit : max 1 (min maxPage maxPage) = maxPage := by decide
  rw [fetchAllFrom, fetchBatches, hlimit]
  simp only [eval_bind, eval_query, hanswer, fromPmp, Except.bind, eval_pure]
  split_ifs <;> rfl

/-- A cursor between two batches brings the rest, if the batches before it are full pages. -/
theorem fetchAllFrom_complete (hserves : ServesPairs answer tracks)
    (hat : ((tracks stream).ofPair round player).At since before rest)
    (hfull : before.length % 500 = 0) :
    (fetchAllFrom stream round player before since).eval answer =
      .ok ((tracks stream).ofPair round player).batches := by
  induction hn : rest.length using Nat.strong_induction_on generalizing before rest since with
  | _ n ih =>
    obtain ⟨value, hanswer, hpage⟩ := hserves stream (max since 0) maxPage round player
    rw [max_zero_of_nonneg hat.nonneg, hat.after_eq] at hpage
    rw [eval_fetchAllFrom hanswer, hat.split]
    have hpage : batchesOf value = rest.take 500 := hpage
    rw [hpage]
    have hlength : (rest.take 500).length = min 500 rest.length := List.length_take
    split_ifs with hempty hlast hpartial
    · -- nothing is left
      have hrest : rest = [] := by
        have := congrArg List.length hempty
        rw [hlength, List.length_nil] at this
        exact List.eq_nil_of_length_eq_zero (by omega)
      rw [hrest, List.append_nil]
    · -- the cursor moves, so the loop does not end here
      rw [← List.take_append_drop 500 rest] at hat
      obtain ⟨b, hb⟩ := List.exists_mem_of_ne_nil _ hempty
      have hmem : b ∈ ((tracks stream).ofPair round player).batches := by
        rw [hat.split]
        exact List.mem_append_right _ (List.mem_append_left _ hb)
      obtain ⟨m, hm, -⟩ := ((tracks stream).ofPair round player).numbered b hmem
      have hlt := hat.rest b (List.mem_append_left _ hb) m hm
      have hle := (hat.page hempty).before b (List.mem_append_right _ hb) m hm
      exact absurd (Int64.lt_of_lt_of_le hlt (Int64.le_trans hle hlast)) Int64.lt_irrefl
    · -- the page is the last one
      rw [List.length_append, hlength] at hpartial
      rw [List.take_of_length_le (by omega)]
    · rw [List.length_append, hlength] at hpartial
      have hdrop : (rest.drop 500).length < n := by
        have := List.length_pos_iff.mpr hempty
        rw [hlength] at this
        rw [List.length_drop]
        omega
      rw [← List.take_append_drop 500 rest] at hat
      have hnext := ih _ hdrop (hat.page hempty)
        (by rw [List.length_append, hlength]; omega) rfl
      rw [hnext, (hat.page hempty).split, List.append_assoc, List.take_append_drop]

/-! ## The cursor -/

/-- A request goes on from behind all earlier ones. -/
def Ascends (stream : Stream) (round : String) (player : Int32)
    (h : History Query Query.Answer) (q : Query) : Prop :=
  ∃ since, q = .persist stream since maxPage round player ∧ ∀ s ∈ sincesOf h, s < since

theorem sincesOf_snoc {a : Except OpenUdsError Json} :
    sincesOf (h ++ [⟨.persist stream since maxPage round player, a⟩]) = sincesOf h ++ [since] := by
  simp [sincesOf]

/-- Whatever the answers are. -/
theorem fetchAllFrom_ascends (hpos : 0 ≤ since) (hsince : ∀ s ∈ sincesOf h, s < since) :
    wp (fun h e => Ascends stream round player h e.1)
      (fetchAllFrom stream round player all since) h fun _ _ => True := by
  induction all, since using fetchAllFrom.induct generalizing h with
  | _ all since ih =>
    rw [fetchAllFrom, fetchBatches, max_zero_of_nonneg hpos]
    refine wp_ask (fun _ => ⟨since, rfl, hsince⟩) fun page => ?_
    cases page with
    | error e => trivial
    | ok value =>
      show wp _ (if batchesOf value = [] then pure all else _) _ _
      split_ifs with hempty hlast hpartial
      · trivial
      · trivial
      · trivial
      · have hlt : since < lastSequence since (batchesOf value) := Int64.not_le.mp hlast
        refine ih value hlast (Int64.le_of_lt (Int64.lt_of_le_of_lt hpos hlt)) ?_
        intro s hs
        have hs : s ∈ sincesOf (h ++ [⟨.persist stream since maxPage round player, .ok value⟩]) := hs
        rw [sincesOf_snoc, List.mem_append, List.mem_singleton] at hs
        rcases hs with hs | rfl
        · exact Int64.lt_trans (hsince s hs) hlt
        · exact hlt

/-- All batches of the pair, each once and in ascending order; and requests that only go
    forward, whatever PMP answers. -/
theorem fetch_all_batches_complete (stream : Stream) (round : String) (player : Int32) :
    (∀ answer tracks, ServesPairs answer tracks →
      (fetchAllBatches stream round player).eval answer =
        .ok ((tracks stream).ofPair round player).batches) ∧
      ∀ h q, (fetchAllBatches stream round player).Asks h q → Ascends stream round player h q := by
  constructor
  · intro answer tracks hserves
    exact fetchAllFrom_complete hserves (Track.at_start _) rfl
  · intro h q hasks
    have hwp : wp (fun h e => Ascends stream round player h e.1)
        (fetchAllBatches stream round player) [] fun _ _ => True :=
      fetchAllFrom_ascends (Int64.le_refl 0) nofun
    exact ok_of_asks hwp hasks (sampleServer q)

/-- A PMP with one batch of the player and one of another. -/
def pairTracks : Stream → Track := fun _ =>
  ⟨[.obj [("player_id", .ofInt64 5), ("round_uuid", .str "r"), ("sequence", .ofInt64 1)],
      .obj [("player_id", .ofInt64 6), ("round_uuid", .str "r"), ("sequence", .ofInt64 2)]],
    fun b hb => by
      rcases List.mem_cons.mp hb with rfl | hb
      · exact ⟨1, rfl, by decide⟩
      · exact ⟨2, by rw [List.mem_singleton.mp hb]; exact ⟨rfl, by decide⟩⟩,
    by decide⟩

def pairServer : (q : Query) → q.Answer
  | .persist stream since limit round player =>
    .ok (.arr ((((pairTracks stream).ofPair round player).after since).take limit.toInt.toNat))
  | q => sampleServer q

/-- The player's batch. -/
theorem fetch_all_batches_complete_pair : ServesPairs pairServer pairTracks ∧
    (fetchAllBatches .touches "r" 5).eval pairServer =
      .ok ((pairTracks .touches).ofPair "r" 5).batches :=
  have hserves : ServesPairs pairServer pairTracks := fun _ _ _ _ _ => ⟨_, rfl, rfl⟩
  ⟨hserves, (fetch_all_batches_complete .touches "r" 5).1 pairServer pairTracks hserves⟩

end Ppb.Replay
