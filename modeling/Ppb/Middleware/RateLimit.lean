import Ppb.Common.SlidingWindow
import Ppb.Server.Error

/-!
# The rate limiter (`middleware/rate_limit.rs`)

A bucket for each key, with the times of the calls it let through. `check` drops the
times that are 60 seconds old, rejects if as many as the limit are left, and otherwise
adds the time of the call. A bucket is pruned only when its own key is called, so what
it holds is not the last 60 seconds; what the next `check` makes of it is
(`recent_bucket`), and this is all an answer depends on (`answer_eq`).

* `rate_limit_window`: for every sequence of calls, how many are let through, when one is
  rejected, when it may be tried again, and what an answer does not depend on.
-/

namespace Ppb.Middleware

open SlidingWindow

/-- `RateLimiter` (middleware/rate_limit.rs:14-17); a key that is not in the map has an
    empty bucket. -/
structure RateLimiter where
  buckets : String → List ℤ

namespace RateLimiter

def new : RateLimiter := ⟨fun _ => []⟩

/-- The hint of a rejection (middleware/rate_limit.rs:33-36). -/
def retryAfter (bucket : List ℤ) (now : ℤ) : ℤ :=
  match bucket.head? with
  | some t => max (60 - (now - t)) 1
  | none => 60

/-- The error of a rejection (middleware/rate_limit.rs:37-43). -/
def exceeded (retryAfter : ℤ) : ApiError :=
  { ApiError.withDetails .rateLimited "rate limit exceeded"
      (.obj [("retry_after_seconds", .ofInt64 (Int64.ofInt retryAfter))]) with
    retryAfterSecs := some retryAfter.toNat }

/-- `RateLimiter::check` (middleware/rate_limit.rs:25-48) at the time `now`. -/
def check (limiter : RateLimiter) (key : String) (limitPerMinute : ℕ) (now : ℤ) :
    Except ApiError Unit × RateLimiter :=
  if limitPerMinute = 0 then
    (.error (.new .rateLimited "rate limit disabled by policy"), limiter)
  else
    let bucket := (limiter.buckets key).filter fun t => now - t < 60
    if limitPerMinute ≤ bucket.length then
      (.error (exceeded (retryAfter bucket now)), ⟨Function.update limiter.buckets key bucket⟩)
    else (.ok (), ⟨Function.update limiter.buckets key (bucket ++ [now])⟩)

end RateLimiter

/-! ## Histories -/

structure Call where
  key : String
  now : ℤ

/-- The calls in the order they are made, on a clock that does not go back. -/
def Timed (calls : List Call) : Prop := calls.Pairwise fun c d => c.now ≤ d.now

variable (limit : String → ℕ)

/-- The limiter after `calls`, with one limit for each key. -/
def after (calls : List Call) : RateLimiter :=
  calls.foldl (fun limiter c => (limiter.check c.key (limit c.key) c.now).2) .new

/-- The answer to `c` after `calls`. -/
def answer (calls : List Call) (c : Call) : Except ApiError Unit :=
  ((after limit calls).check c.key (limit c.key) c.now).1

/-- The times at which calls of `key` were let through, where `past` were made before. -/
def acceptedSince (key : String) : List Call → List Call → List ℤ
  | _, [] => []
  | past, c :: calls =>
    (if c.key = key ∧ answer limit past c = .ok () then [c.now] else []) ++
      acceptedSince key (past ++ [c]) calls

def accepted (key : String) (calls : List Call) : List ℤ := acceptedSince limit key [] calls

/-- The law of the window, for one limit for each key. -/
structure WindowLaw : Prop where
  /-- within any 60 seconds at most `limit` calls of a key are let through -/
  bounded : ∀ key calls, Timed calls → Bounded 60 (limit key) (accepted limit key calls)
  /-- a call is rejected only if `limit` calls were let through in the last 60 seconds -/
  justified : ∀ calls c, Timed (calls ++ [c]) → answer limit calls c ≠ .ok () →
    limit c.key ≤ (recent 60 c.now (accepted limit c.key calls)).length
  /-- a rejection says exactly when the next call is let through, if none is in between -/
  retryExact : ∀ calls c e, Timed (calls ++ [c]) → answer limit calls c = .error e →
    ∃ retry : ℕ, e.retryAfterSecs = some retry ∧
      ∀ more d, Timed (calls ++ c :: more ++ [d]) → d.key = c.key →
        acceptedSince limit c.key (calls ++ [c]) more = [] →
        (answer limit (calls ++ c :: more) d = .ok () ↔ c.now + retry ≤ d.now)
  /-- a rejected call, or one of another key, changes no later answer -/
  independent : ∀ calls c more d, Timed (calls ++ c :: more ++ [d]) →
    c.key ≠ d.key ∨ answer limit calls c ≠ .ok () →
    answer limit (calls ++ c :: more) d = answer limit (calls ++ more) d

variable {limit} {key : String} {calls more : List Call} {c d : Call}

theorem Timed.left (h : Timed (calls ++ more)) : Timed calls := (List.pairwise_append.mp h).1

theorem Timed.le_of_mem (h : Timed (calls ++ [c])) (hd : d ∈ calls) : d.now ≤ c.now :=
  (List.pairwise_append.mp h).2.2 d hd c (List.mem_singleton.mpr rfl)

theorem Timed.erase (h : Timed (calls ++ c :: more)) : Timed (calls ++ more) :=
  h.sublist (List.Sublist.append_left (List.sublist_cons_self c more) calls)

/-! ## Let through -/

theorem after_append_singleton (calls : List Call) (c : Call) :
    after limit (calls ++ [c]) = ((after limit calls).check c.key (limit c.key) c.now).2 := by
  rw [after, List.foldl_append]
  rfl

theorem acceptedSince_append (key : String) (past calls more : List Call) :
    acceptedSince limit key past (calls ++ more) =
      acceptedSince limit key past calls ++ acceptedSince limit key (past ++ calls) more := by
  induction calls generalizing past with
  | nil => rw [List.append_nil]; rfl
  | cons c calls ih =>
    rw [List.cons_append, acceptedSince, acceptedSince, ih, List.append_assoc, List.append_assoc]
    rfl

theorem accepted_append (key : String) (calls more : List Call) :
    accepted limit key (calls ++ more) =
      accepted limit key calls ++ acceptedSince limit key calls more := by
  rw [accepted, acceptedSince_append]
  rfl

theorem accepted_append_singleton (key : String) (calls : List Call) (c : Call) :
    accepted limit key (calls ++ [c]) = accepted limit key calls ++
      (if c.key = key ∧ answer limit calls c = .ok () then [c.now] else []) := by
  rw [accepted_append, acceptedSince, acceptedSince, List.append_nil]

theorem exists_of_mem_acceptedSince {past : List Call} {t : ℤ}
    (h : t ∈ acceptedSince limit key past calls) : ∃ c ∈ calls, c.now = t := by
  induction calls generalizing past with
  | nil => cases h
  | cons c calls ih =>
    rcases List.mem_append.mp h with hhead | htail
    · split_ifs at hhead
      · exact ⟨c, List.mem_cons_self, (List.mem_singleton.mp hhead).symm⟩
      · cases hhead
    · obtain ⟨d, hd, hnow⟩ := ih htail
      exact ⟨d, List.mem_cons_of_mem _ hd, hnow⟩

/-- What was let through before `c` is not later than `c`. -/
theorem accepted_le (h : Timed (calls ++ [c])) : ∀ t ∈ accepted limit key calls, t ≤ c.now := by
  intro t ht
  obtain ⟨d, hd, rfl⟩ := exists_of_mem_acceptedSince ht
  exact h.le_of_mem hd

theorem accepted_sorted (h : Timed calls) : (accepted limit key calls).Pairwise (· ≤ ·) := by
  induction calls using List.reverseRecOn with
  | nil => exact List.Pairwise.nil
  | append_singleton calls c ih =>
    rw [accepted_append_singleton, List.pairwise_append]
    refine ⟨ih h.left, ?_, ?_⟩
    · split_ifs
      · exact List.pairwise_singleton _ _
      · exact List.Pairwise.nil
    · intro t ht u hu
      split_ifs at hu
      · rw [List.mem_singleton.mp hu]
        exact accepted_le h t ht
      · cases hu

/-! ## Buckets -/

/-- What `check` makes of the recent part of a bucket. -/
theorem check_eq {n : ℕ} (hn : 0 < n) (limiter : RateLimiter) (key : String) (now : ℤ) :
    limiter.check key n now =
      if n ≤ (recent 60 now (limiter.buckets key)).length then
        (.error (RateLimiter.exceeded
            (RateLimiter.retryAfter (recent 60 now (limiter.buckets key)) now)),
          ⟨Function.update limiter.buckets key (recent 60 now (limiter.buckets key))⟩)
      else
        (.ok (), ⟨Function.update limiter.buckets key
          (recent 60 now (limiter.buckets key) ++ [now])⟩) := by
  rw [RateLimiter.check, if_neg (Nat.ne_of_gt hn)]
  rfl

/-- What a call leaves in a bucket for later calls. -/
theorem recent_check {n : ℕ} (hn : 0 < n) {limiter : RateLimiter} {now later : ℤ}
    (hlater : now ≤ later) (c : String) :
    recent 60 later ((limiter.check c n now).2.buckets key) =
      recent 60 later (limiter.buckets key ++
        if c = key ∧ (limiter.check c n now).1 = .ok () then [now] else []) := by
  by_cases hkey : c = key
  · subst hkey
    rw [check_eq hn, recent_append]
    split_ifs with hlen hok hok
    · cases hok.2
    · simp only [Function.update_self]
      rw [recent_recent hlater]
      exact (List.append_nil _).symm
    · simp only [Function.update_self]
      rw [recent_append, recent_recent hlater]
    · exact absurd ⟨rfl, rfl⟩ hok
  · have hother : key ≠ c := fun h => hkey h.symm
    have hnone : (if c = key ∧ (limiter.check c n now).1 = .ok () then [now] else []) = [] :=
      if_neg fun h => hkey h.1
    rw [hnone, List.append_nil, check_eq hn]
    split_ifs
    · simp only [Function.update_of_ne hother]
    · simp only [Function.update_of_ne hother]

/-- The recent part of a bucket is what was let through recently. -/
theorem recent_bucket (hpos : ∀ key, 0 < limit key) (h : Timed (calls ++ [c])) :
    recent 60 c.now ((after limit calls).buckets key) =
      recent 60 c.now (accepted limit key calls) := by
  induction calls using List.reverseRecOn with
  | nil => rfl
  | append_singleton calls d ih =>
    have hcd : d.now ≤ c.now := h.le_of_mem (List.mem_append_right _ (List.mem_singleton.mpr rfl))
    have hcalls : Timed (calls ++ [c]) := by
      rw [List.append_assoc] at h
      exact h.erase
    rw [after_append_singleton, recent_check (hpos d.key) hcd, accepted_append_singleton,
      recent_append, recent_append, ih hcalls]
    rfl

/-- An answer depends on what was let through recently, and on nothing else. -/
theorem answer_eq (hpos : ∀ key, 0 < limit key) (h : Timed (calls ++ [c])) :
    answer limit calls c =
      if limit c.key ≤ (recent 60 c.now (accepted limit c.key calls)).length then
        .error (RateLimiter.exceeded
          (RateLimiter.retryAfter (recent 60 c.now (accepted limit c.key calls)) c.now))
      else .ok () := by
  rw [answer, check_eq (hpos c.key), recent_bucket hpos h]
  split_ifs <;> rfl

theorem answer_eq_ok (hpos : ∀ key, 0 < limit key) (h : Timed (calls ++ [c])) :
    answer limit calls c = .ok () ↔
      (recent 60 c.now (accepted limit c.key calls)).length < limit c.key := by
  rw [answer_eq hpos h]
  split_ifs with hlen
  · exact iff_of_false nofun (Nat.not_lt.mpr hlen)
  · exact iff_of_true rfl (Nat.lt_of_not_le hlen)

/-! ## The law -/

theorem bounded_accepted (hpos : ∀ key, 0 < limit key) (h : Timed calls) :
    Bounded 60 (limit key) (accepted limit key calls) := by
  induction calls using List.reverseRecOn with
  | nil => exact fun s => Nat.zero_le _
  | append_singleton calls c ih =>
    rw [accepted_append_singleton]
    split_ifs with hok
    · obtain ⟨rfl, hok⟩ := hok
      exact (ih h.left).append ((answer_eq_ok hpos h).mp hok)
    · rw [List.append_nil]
      exact ih h.left

/-- A rejection hints at the time at which the oldest recent call leaves the window. -/
theorem exists_oldest (hpos : ∀ key, 0 < limit key) (h : Timed (calls ++ [c])) {e : ApiError}
    (he : answer limit calls c = .error e) :
    ∃ oldest rest, recent 60 c.now (accepted limit c.key calls) = oldest :: rest ∧
      e.retryAfterSecs = some (60 - (c.now - oldest)).toNat ∧ c.now - oldest < 60 := by
  rw [answer_eq hpos h] at he
  split_ifs at he with hlen
  have hne : recent 60 c.now (accepted limit c.key calls) ≠ [] := by
    intro hnil
    rw [hnil, List.length_nil] at hlen
    exact absurd (hpos c.key) (Nat.not_lt.mpr hlen)
  obtain ⟨oldest, rest, hrecent⟩ := List.exists_cons_of_ne_nil hne
  have hmem : oldest ∈ recent 60 c.now (accepted limit c.key calls) := by
    rw [hrecent]
    exact List.mem_cons_self
  have hlt := (mem_recent.mp hmem).2
  refine ⟨oldest, rest, hrecent, ?_, hlt⟩
  rw [← Except.error.inj he, hrecent]
  have hmax : max (60 - (c.now - oldest)) 1 = 60 - (c.now - oldest) := by omega
  show some (max (60 - (c.now - oldest)) 1).toNat = _
  rw [hmax]

theorem retry_exact (hpos : ∀ key, 0 < limit key) (h : Timed (calls ++ [c])) {e : ApiError}
    (he : answer limit calls c = .error e) :
    ∃ retry : ℕ, e.retryAfterSecs = some retry ∧
      ∀ more d, Timed (calls ++ c :: more ++ [d]) → d.key = c.key →
        acceptedSince limit c.key (calls ++ [c]) more = [] →
        (answer limit (calls ++ c :: more) d = .ok () ↔ c.now + retry ≤ d.now) := by
  obtain ⟨oldest, rest, hrecent, hretry, hlt⟩ := exists_oldest hpos h he
  refine ⟨_, hretry, ?_⟩
  intro more d hd hkey hnone
  have hcons : calls ++ c :: more = calls ++ [c] ++ more := by
    rw [List.append_assoc]
    rfl
  have hcd : c.now ≤ d.now := hd.le_of_mem (List.mem_append_right _ List.mem_cons_self)
  have hsame : accepted limit d.key (calls ++ c :: more) = accepted limit c.key calls := by
    rw [hkey, hcons, accepted_append, hnone, accepted_append_singleton, he, if_neg nofun,
      List.append_nil, List.append_nil]
  have hfull : limit c.key ≤ (recent 60 c.now (accepted limit c.key calls)).length := by
    by_contra hlen
    rw [(answer_eq_ok hpos h).mpr (Nat.lt_of_not_le hlen)] at he
    cases he
  have hmost : (recent 60 c.now (accepted limit c.key calls)).length ≤ limit c.key :=
    (bounded_accepted hpos h.left).length_recent (accepted_le h)
  rw [answer_eq_ok hpos hd, hsame, hkey]
  constructor
  · intro hfree
    by_contra hearly
    have hlen : _ ≤ (recent 60 d.now _).length :=
      length_recent_of_lt (accepted_sorted h.left) hrecent (by omega)
    omega
  · intro htime
    have hlen := length_recent_of_le hcd hrecent (by omega)
    omega

/-- Calls that were not let through, or are of another key, leave no trace in `accepted`. -/
theorem accepted_erase (hpos : ∀ key, 0 < limit key) (h : Timed (calls ++ c :: more ++ [d]))
    (hc : c.key ≠ key ∨ answer limit calls c ≠ .ok ()) :
    accepted limit key (calls ++ c :: more) = accepted limit key (calls ++ more) := by
  induction more using List.reverseRecOn generalizing d with
  | nil =>
    have hnot : ¬ (c.key = key ∧ answer limit calls c = .ok ()) := by
      rintro ⟨hkey, hok⟩
      exact hc.elim (fun hne => hne hkey) (fun hne => hne hok)
    rw [accepted_append_singleton, if_neg hnot, List.append_nil, List.append_nil]
  | append_singleton more e ih =>
    have hcons : calls ++ c :: (more ++ [e]) = calls ++ c :: more ++ [e] := by simp
    rw [hcons] at h ⊢
    have he : Timed (calls ++ more ++ [e]) := by
      have := h.left
      rw [List.append_assoc, List.cons_append] at this
      rw [List.append_assoc]
      exact this.erase
    rw [← List.append_assoc calls more, accepted_append_singleton, accepted_append_singleton,
      ih h.left]
    by_cases hkey : e.key = key
    · have hanswer : answer limit (calls ++ c :: more) e = answer limit (calls ++ more) e := by
        rw [answer_eq hpos h.left, answer_eq hpos he, hkey, ih h.left]
      rw [hanswer]
    · rw [if_neg (fun h => hkey h.1), if_neg (fun h => hkey h.1)]

theorem answer_erase (hpos : ∀ key, 0 < limit key) (h : Timed (calls ++ c :: more ++ [d]))
    (hc : c.key ≠ d.key ∨ answer limit calls c ≠ .ok ()) :
    answer limit (calls ++ c :: more) d = answer limit (calls ++ more) d := by
  have hd : Timed (calls ++ more ++ [d]) := by
    have hcalls := h
    rw [List.append_assoc, List.cons_append] at hcalls
    rw [List.append_assoc]
    exact hcalls.erase
  rw [answer_eq hpos h, answer_eq hpos hd, accepted_erase hpos h hc]

theorem rate_limit_window {limit : String → ℕ} (hpos : ∀ key, 0 < limit key) :
    WindowLaw limit where
  bounded := fun _ _ h => bounded_accepted hpos h
  justified := fun _ _ h hrejected =>
    Nat.le_of_not_lt fun hfree => hrejected ((answer_eq_ok hpos h).mpr hfree)
  retryExact := fun _ _ _ h he => retry_exact hpos h he
  independent := fun _ _ _ _ h hc => answer_erase hpos h hc

/-- Three calls a minute for every key. -/
theorem rate_limit_window_three : (∀ key : String, 0 < (fun _ => 3 : String → ℕ) key) ∧
    WindowLaw fun _ => 3 :=
  ⟨fun _ => Nat.succ_pos 2, rate_limit_window fun _ => Nat.succ_pos 2⟩

/-- The fourth call in a minute is told to come back when the first is 60 seconds old. -/
example : answer (fun _ => 3) [⟨"a", 0⟩, ⟨"a", 10⟩, ⟨"b", 15⟩, ⟨"a", 20⟩] ⟨"a", 59⟩ =
    .error ⟨.rateLimited, "rate limit exceeded", [("retry_after_seconds", .ofInt64 1)], some 1⟩ := by
  decide

end Ppb.Middleware
