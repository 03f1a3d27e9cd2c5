import Mathlib

/-!
# Broadcast channels that forget

A channel has a capacity: of all that was sent it keeps the last `capacity` items. A receiver
has a place in what was sent. If the item there is still kept, it gets it and goes on to the
next; if not, it has lagged, and goes on with the oldest that is kept.

* `Hears`: what a receiver has got is in the order of the sender, nothing twice; and it is
  everything if the receiver has never lagged.
* `Hears.push`, `Hears.next`: how that goes on, with the sender and with the receiver.
* `Hears.filterMap_sublist`: the same for the images of the items, where a receiver sends on
  what it gets.
-/

namespace Ppb.Broadcast

variable {α β : Type*}

/-- Where a receiver stands, and what it has got so far since it has subscribed. -/
structure Receiver (α : Type*) where
  since : ℕ
  cursor : ℕ
  lagged : Bool
  got : List α

/-- A new receiver. -/
def subscribe (sent : List α) : Receiver α := ⟨sent.length, sent.length, false, []⟩

/-- `recv`, with what it returns: an item, or nothing for a receiver that has lagged. -/
def recv (capacity : ℕ) (sent : List α) (r : Receiver α) : Option (Option α × Receiver α) :=
  if r.cursor + capacity < sent.length then
    some (none, { r with cursor := sent.length - capacity, lagged := true })
  else (sent[r.cursor]?).map fun a =>
    (some a, { r with cursor := r.cursor + 1, got := r.got ++ [a] })

structure Hears (sent : List α) (r : Receiver α) : Prop where
  since : r.since ≤ r.cursor
  cursor : r.cursor ≤ sent.length
  sublist : r.got.Sublist ((sent.take r.cursor).drop r.since)
  all : r.lagged = false → r.got = (sent.take r.cursor).drop r.since

variable {sent : List α} {r r' : Receiver α} {capacity : ℕ} {a : α}

theorem hears_subscribe (sent : List α) : Hears sent (subscribe sent) := by
  refine ⟨le_rfl, le_rfl, ?_, fun _ => ?_⟩ <;> simp [subscribe]

theorem Hears.push (h : Hears sent r) (a : α) : Hears (sent ++ [a]) r := by
  have htake : (sent ++ [a]).take r.cursor = sent.take r.cursor :=
    List.take_append_of_le_length h.cursor
  refine ⟨h.since, ?_, htake ▸ h.sublist, htake ▸ h.all⟩
  rw [List.length_append]
  exact h.cursor.trans (Nat.le_add_right _ _)

theorem take_succ_drop {n m : ℕ} (hm : m ≤ n) (ha : sent[n]? = some a) :
    (sent.take (n + 1)).drop m = (sent.take n).drop m ++ [a] := by
  obtain ⟨hn, rfl⟩ := List.getElem?_eq_some_iff.mp ha
  rw [List.take_succ_eq_append_getElem hn, List.drop_append_of_le_length]
  rw [List.length_take]
  omega

/-- What the receiver gets is the item at its place. -/
theorem recv_item (h : recv capacity sent r = some (some a, r')) :
    sent[r.cursor]? = some a ∧ r' = { r with cursor := r.cursor + 1, got := r.got ++ [a] } := by
  unfold recv at h
  split_ifs at h
  · cases h
  · obtain ⟨b, hb, heq⟩ := Option.map_eq_some_iff.mp h
    obtain ⟨h1, h2⟩ := Prod.mk.inj heq
    obtain rfl := Option.some.inj h1
    exact ⟨hb, h2.symm⟩

theorem recv_lagged (h : recv capacity sent r = some (none, r')) :
    r.cursor ≤ sent.length - capacity ∧
      r' = { r with cursor := sent.length - capacity, lagged := true } := by
  unfold recv at h
  split_ifs at h with hlag
  · exact ⟨by omega, (Prod.mk.inj (Option.some.inj h)).2.symm⟩
  · obtain ⟨b, -, heq⟩ := Option.map_eq_some_iff.mp h
    cases (Prod.mk.inj heq).1

theorem Hears.next (h : Hears sent r) {o : Option α} (hrecv : recv capacity sent r = some (o, r')) :
    Hears sent r' := by
  cases o with
  | some a =>
    obtain ⟨ha, rfl⟩ := recv_item hrecv
    have hsplit := take_succ_drop h.since ha
    refine ⟨h.since.trans (Nat.le_succ _), (List.getElem?_eq_some_iff.mp ha).1, ?_, fun hall => ?_⟩
    · show (r.got ++ [a]).Sublist ((sent.take (r.cursor + 1)).drop r.since)
      rw [hsplit]
      exact h.sublist.append (List.Sublist.refl _)
    · show r.got ++ [a] = (sent.take (r.cursor + 1)).drop r.since
      rw [hsplit, h.all hall]
  | none =>
    obtain ⟨hle, rfl⟩ := recv_lagged hrecv
    refine ⟨h.since.trans hle, Nat.sub_le _ _, h.sublist.trans ?_, fun hall => by cases hall⟩
    exact (List.take_prefix_take_left hle).sublist.drop _

theorem Hears.got_sublist (h : Hears sent r) : r.got.Sublist (sent.drop r.since) :=
  h.sublist.trans ((List.take_sublist _ _).drop _)

theorem Hears.mem (h : Hears sent r) (ha : a ∈ r.got) : a ∈ sent :=
  (List.drop_sublist _ _).subset (h.got_sublist.subset ha)

theorem Hears.filterMap_sublist (h : Hears sent r) (f : α → Option β) :
    (r.got.filterMap f).Sublist ((sent.drop r.since).filterMap f) :=
  h.got_sublist.filterMap f

/-- A receiver that has never lagged and has got what there is. -/
theorem Hears.got_eq (h : Hears sent r) (hall : r.lagged = false) (hend : r.cursor = sent.length) :
    r.got = sent.drop r.since := by
  rw [h.all hall, hend, List.take_length]

end Ppb.Broadcast
