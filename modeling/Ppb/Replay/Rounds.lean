import Ppb.Replay.Listing

/-!
# Does `fetch_all_rounds` fetch all rounds?

PMP answers `persist.rounds` in one of two ways: with `items` and a `next_offset` while
more rounds remain, or with a bare array. The loop follows `next_offset`, and without
one it asks again after a full page. After a last page that happens to be full this
costs one more request, which brings nothing.

* `nextOffset_slice`: on every page of either dialect, the next page starts after this
  one if this one is full, and there is none otherwise.
* `fetch_all_rounds_complete`: so the loop ends with all rounds, in order.
-/

namespace Ppb.Replay

open Prog

/-! ## The two dialects -/

/-- The rounds `[offset, offset + limit)`. -/
def slice (rounds : List Json) (limit offset : ℕ) : List Json := (rounds.drop offset).take limit

/-- `{items, next_offset}`, where `next_offset` is null or missing once no more rounds remain. -/
def IsWrapped (rounds : List Json) (limit offset : ℕ) (value : Json) : Prop :=
  value.get? "items" = some (.arr (slice rounds limit offset)) ∧
    if offset + (slice rounds limit offset).length < rounds.length then
      value.get? "next_offset" =
        some (.ofInt64 (Int64.ofNat (offset + (slice rounds limit offset).length)))
    else value.get? "next_offset" = none ∨ value.get? "next_offset" = some .null

/-- PMP answers with slices, each in either dialect. -/
def ServesRounds (answer : (q : ListQuery) → q.Answer) (rounds : List Json)
    (round : Option String) (player : Option Int32) : Prop :=
  ∀ limit offset : Int64, 0 ≤ limit → 0 ≤ offset → ∃ value,
    answer (.rounds limit offset round player) = .ok value ∧
      (value = .arr (slice rounds limit.toInt.toNat offset.toInt.toNat) ∨
        IsWrapped rounds limit.toInt.toNat offset.toInt.toNat value)

variable {rounds : List Json} {value : Json} {offset : ℕ}

theorem length_slice (rounds : List Json) (limit offset : ℕ) :
    (slice rounds limit offset).length = min limit (rounds.length - offset) := by
  rw [slice, List.length_take, List.length_drop]

/-- Either dialect brings the slice. -/
theorem roundsOf_slice
    (h : value = .arr (slice rounds 1000 offset) ∨ IsWrapped rounds 1000 offset value) :
    roundsOf value = slice rounds 1000 offset := by
  rcases h with rfl | ⟨hitems, -⟩
  · rfl
  · rw [roundsOf, hitems]
    rfl

/-- The rule for a page without `next_offset`, in numbers. -/
theorem afterFull_slice (h : roundsOf value = slice rounds 1000 offset) :
    nextOffset.afterFull (Int64.ofNat offset) value =
      if (slice rounds 1000 offset).length = 1000 then some (Int64.ofNat (offset + 1000))
      else none := by
  have hle : (slice rounds 1000 offset).length ≤ 1000 := by
    rw [length_slice]
    exact Nat.min_le_left _ _
  have hfull : Int64.ofNat (slice rounds 1000 offset).length = page ↔
      (slice rounds 1000 offset).length = 1000 := by
    rw [← Int64.toInt_inj, Int64.toInt_ofNat_of_lt (by omega)]
    show ((slice rounds 1000 offset).length : ℤ) = 1000 ↔ _
    omega
  have hsum : Int64.ofNat offset + page = Int64.ofNat (offset + 1000) := by
    rw [Int64.ofNat_add]
    rfl
  rw [nextOffset.afterFull, h, hsum]
  exact if_congr hfull rfl rfl

/-- A full page is followed by the next one, and no other page is. -/
theorem nextOffset_slice (hsmall : rounds.length < 2 ^ 63)
    (h : value = .arr (slice rounds 1000 offset) ∨ IsWrapped rounds 1000 offset value) :
    nextOffset (Int64.ofNat offset) value =
      if (slice rounds 1000 offset).length = 1000 then some (Int64.ofNat (offset + 1000))
      else none := by
  have hafter := afterFull_slice (roundsOf_slice h)
  rw [← hafter, nextOffset]
  rcases h with rfl | hwrapped
  · rfl
  · obtain ⟨hitems, hnext⟩ := hwrapped
    split_ifs at hnext with hmore
    · -- more rounds remain, so the page is full and both rules name the same offset
      have hlength : (slice rounds 1000 offset).length = 1000 := by
        have := length_slice rounds 1000 offset
        omega
      have hlt : Int64.ofNat offset < Int64.ofNat (offset + 1000) := by
        rw [Int64.lt_iff_toInt_lt, Int64.toInt_ofNat_of_lt (by omega),
          Int64.toInt_ofNat_of_lt (by omega)]
        omega
      rw [hlength] at hnext
      rw [hnext, Option.bind_some, Json.asI64_ofInt64]
      show (if Int64.ofNat offset < Int64.ofNat (offset + 1000) then _ else _) = _
      rw [if_pos hlt, hafter, if_pos hlength]
    · rcases hnext with hnone | hnull
      · rw [hnone]
        rfl
      · rw [hnull]
        rfl

/-! ## Completeness -/

variable {answer : (q : ListQuery) → q.Answer} {round : Option String} {player : Option Int32}

/-- From the offset of a page, the loop brings the rounds from there on. -/
theorem fetchAllRounds_slice (hsmall : rounds.length < 2 ^ 63)
    (hserves : ServesRounds answer rounds round player) {pages offset : ℕ}
    (hoffset : offset ≤ rounds.length) (hpages : rounds.length < offset + 1000 * pages) :
    (fetchAllRounds round player pages (rounds.take offset) (Int64.ofNat offset)).eval
      answer = .ok (some rounds) := by
  induction pages generalizing offset with
  | zero => omega
  | succ pages ih =>
    have hnonneg : 0 ≤ Int64.ofNat offset := by
      rw [Int64.le_iff_toInt_le, Int64.toInt_ofNat_of_lt (by omega)]
      exact Int.natCast_nonneg offset
    obtain ⟨value, hanswer, hvalue⟩ := hserves page (Int64.ofNat offset) (by decide) hnonneg
    have hto : (Int64.ofNat offset).toInt.toNat = offset := by
      rw [Int64.toInt_ofNat_of_lt (by omega)]
      rfl
    rw [hto] at hvalue
    have hvalue : value = .arr (slice rounds 1000 offset) ∨ IsWrapped rounds 1000 offset value :=
      hvalue
    have hlength := length_slice rounds 1000 offset
    rw [fetchAllRounds]
    simp only [eval_bind, eval_query, hanswer, Except.bind]
    rw [nextOffset_slice hsmall hvalue, roundsOf_slice hvalue]
    split_ifs with hfull
    · have htake : rounds.take offset ++ slice rounds 1000 offset = rounds.take (offset + 1000) :=
        List.take_add.symm
      rw [htake]
      exact ih (by omega) (by omega)
    · have hrest : slice rounds 1000 offset = rounds.drop offset :=
        List.take_of_length_le (by rw [List.length_drop]; omega)
      rw [hrest, List.take_append_drop]
      rfl

/-- With enough requests the loop ends, and it ends with all rounds. -/
theorem fetch_all_rounds_complete {rounds : List Json} (hsmall : rounds.length < 2 ^ 63)
    {answer : (q : ListQuery) → q.Answer} {round : Option String} {player : Option Int32}
    (hserves : ServesRounds answer rounds round player) :
    ∃ n, ∀ pages, n ≤ pages →
      (fetchAllRounds round player pages [] 0).eval answer = .ok (some rounds) := by
  refine ⟨rounds.length + 1, fun pages hpages => ?_⟩
  exact fetchAllRounds_slice hsmall hserves (Nat.zero_le _) (by omega)

/-- A PMP with these rounds, in one dialect or the other. -/
def roundsServer (rounds : List Json) (wrapped : Bool) : (q : ListQuery) → q.Answer
  | .rounds limit offset _ _ =>
    let items := slice rounds limit.toInt.toNat offset.toInt.toNat
    let next := offset.toInt.toNat + items.length
    .ok (if wrapped then
      .obj [("items", .arr items),
        ("next_offset", if next < rounds.length then .ofInt64 (Int64.ofNat next) else .null)]
      else .arr items)
  | .nonPublic _ => .ok []

theorem serves_roundsServer (rounds : List Json) (wrapped : Bool) (round : Option String)
    (player : Option Int32) : ServesRounds (roundsServer rounds wrapped) rounds round player := by
  intro limit offset _ _
  refine ⟨_, rfl, ?_⟩
  cases wrapped with
  | false => exact .inl rfl
  | true =>
    refine .inr ⟨rfl, ?_⟩
    by_cases hmore : offset.toInt.toNat +
        (slice rounds limit.toInt.toNat offset.toInt.toNat).length < rounds.length
    · simp only [if_pos hmore, if_true]
      rfl
    · simp only [if_neg hmore, if_true]
      exact .inr rfl

/-- Two rounds. -/
theorem fetch_all_rounds_complete_two : ([.null, .bool true] : List Json).length < 2 ^ 63 ∧
    ServesRounds (roundsServer [.null, .bool true] true) [.null, .bool true] none (some 5) ∧
    ∃ n, ∀ pages, n ≤ pages →
      (fetchAllRounds none (some 5) pages [] 0).eval
        (roundsServer [.null, .bool true] true) = .ok (some [.null, .bool true]) :=
  ⟨by decide, serves_roundsServer _ _ _ _,
    fetch_all_rounds_complete (by decide) (serves_roundsServer _ _ _ _)⟩

end Ppb.Replay
