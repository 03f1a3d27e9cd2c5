import Ppb.Common.SlidingWindow
import Ppb.Phira.Gateway

/-!
# What the gateway spares Phira

While `clear_cache` is not called, a key that was fetched is in the cache until its value
expires, and a call fetches only after it has found nothing there with the lock of the key
in its hands. So the fetches of one key are at least a lifetime apart, whatever calls
interleave, are dropped or fail.

* `Spaced`: what holds of the fetches since some moment.
* `load_bounded`: in any `k` lifetimes a key is fetched at most `k` times.
-/

namespace Ppb.Phira

open Trace SlidingWindow

/-- Everything but `clear_cache`. -/
def Keeps (_ : Gateway) : Step → Prop
  | .clear => False
  | _ => True

/-- When the key was fetched. -/
def timesOf (key : String) (fetched : List Fetch) : List ℤ :=
  (fetched.filter fun f => f.request.key = key).map fun f => (f.time : ℤ)

/-- The fetches after the first `n`: their values are in the cache as long as they live; what is
    fetched now has expired; and each key was fetched once in a lifetime. -/
structure Spaced (ttlSecs : Int64) (n : ℕ) (s : Gateway) : Prop where
  past : n ≤ s.fetched.length
  cached : ∀ f ∈ s.fetched.drop n, ∃ cv, s.cache f.request.key = some cv ∧
    f.time + lifetime ttlSecs ≤ cv.expires
  expired : ∀ (i : ℕ) (c : Call), s.calls[i]? = some c → c.phase.fetches = true →
    ∀ f ∈ s.fetched.drop n, f.request.key = c.request.key → f.time + lifetime ttlSecs ≤ s.now
  apart : ∀ key, Bounded (lifetime ttlSecs) 1 (timesOf key (s.fetched.drop n))

variable {x : Extern} {ttlSecs : Int64} {n : ℕ} {s s' : Gateway} {i : ℕ} {c : Call} {phase : Phase}
  {P : Request → Prop}

theorem Spaced.start (s : Gateway) : Spaced ttlSecs s.fetched.length s := by
  refine ⟨le_rfl, ?_, ?_, fun key start => ?_⟩ <;> simp [timesOf, window]

/-- No call begins to fetch. -/
theorem Spaced.move (h : Spaced ttlSecs n s)
    (hcalls : ∀ (j : ℕ) (d : Call), s'.calls[j]? = some d → d.phase.fetches = true →
      ∃ d', s.calls[j]? = some d' ∧ d'.phase.fetches = true ∧ d'.request = d.request)
    (hcache : s'.cache = s.cache) (hfetched : s'.fetched = s.fetched) (hnow : s.now ≤ s'.now) :
    Spaced ttlSecs n s' := by
  refine ⟨hfetched ▸ h.past, ?_, fun j d hj hd f hf hkey => ?_, ?_⟩
  · rw [hfetched, hcache]
    exact h.cached
  · obtain ⟨d', hj', hd', hrequest⟩ := hcalls j d hj hd
    rw [hfetched] at hf
    exact (h.expired j d' hj' hd' f hf (hrequest ▸ hkey)).trans hnow
  · rw [hfetched]
    exact h.apart

theorem fetches_of_setPhase (hi : s.calls[i]? = some c)
    (hphase : phase.fetches = true → c.phase.fetches = true) (j : ℕ) (d : Call)
    (hj : (s.setPhase i phase).calls[j]? = some d) (hd : d.phase.fetches = true) :
    ∃ d', s.calls[j]? = some d' ∧ d'.phase.fetches = true ∧ d'.request = d.request := by
  rw [getElem?_setPhase hi] at hj
  split_ifs at hj with hij
  · obtain rfl := Option.some.inj hj
    exact ⟨c, hij ▸ hi, hphase hd, rfl⟩
  · exact ⟨d, hj, hd, rfl⟩

theorem Spaced.setPhase (h : Spaced ttlSecs n s) (hi : s.calls[i]? = some c)
    (hphase : phase.fetches = true → c.phase.fetches = true) :
    Spaced ttlSecs n (s.setPhase i phase) :=
  h.move (fetches_of_setPhase hi hphase) rfl rfl le_rfl

theorem Spaced.settle (h : Spaced ttlSecs n s) (hi : s.calls[i]? = some c)
    (hphase : phase.fetches = false) : Spaced ttlSecs n (s.setPhase i phase) :=
  h.setPhase hi fun hfetches => absurd hfetches (by rw [hphase]; exact Bool.false_ne_true)

theorem Spaced.release (h : Spaced ttlSecs n s) (key : String) : Spaced ttlSecs n (s.release key) :=
  h.move (fun _ d hj hd => ⟨d, hj, hd, rfl⟩) rfl rfl le_rfl

theorem Spaced.setLocks (h : Spaced ttlSecs n s) (locks : String → Option ℕ) :
    Spaced ttlSecs n { s with locks := locks } :=
  h.move (fun _ d hj hd => ⟨d, hj, hd, rfl⟩) rfl rfl le_rfl

/-- A call finds nothing in the cache, so what was fetched under its key has expired. -/
theorem Spaced.send (h : Spaced ttlSecs n s) (hi : s.calls[i]? = some c)
    (hlookup : s.lookup c.request.key = none) : Spaced ttlSecs n (s.setPhase i phase) := by
  refine ⟨h.past, h.cached, fun j d hj hd f hf hkey => ?_, h.apart⟩
  rw [getElem?_setPhase hi] at hj
  split_ifs at hj with hij
  · obtain rfl := Option.some.inj hj
    obtain ⟨cv, hcv, hexpires⟩ := h.cached f hf
    have hgone : cv.expires ≤ s.now := by
      rw [show f.request.key = c.request.key from hkey] at hcv
      simpa [Gateway.lookup, hcv] using hlookup
    exact hexpires.trans hgone
  · exact h.expired j d hj hd f hf hkey

/-- The fetch of a call has come. -/
theorem Spaced.insert (h : Spaced ttlSecs n s) (hsound : Sound P ttlSecs s)
    (hi : s.calls[i]? = some c) (hc : c.phase.fetches = true) (hphase : phase.fetches = false)
    (value : Json) : Spaced ttlSecs n ((s.insert ttlSecs c.request value).setPhase i phase) := by
  have hpast := h.past
  have hdrop : List.drop n (s.fetched ++ [⟨c.request, value, s.now⟩]) =
      s.fetched.drop n ++ [⟨c.request, value, s.now⟩] := List.drop_append_of_le_length hpast
  have hold : ∀ f ∈ s.fetched.drop n, f.request.key = c.request.key →
      f.time + lifetime ttlSecs ≤ s.now := h.expired i c hi hc
  refine ⟨?_, fun f hf => ?_, fun j d hj hd f hf hkey => ?_, fun key => ?_⟩
  · show n ≤ (s.fetched ++ _).length
    rw [List.length_append]
    omega
  · show ∃ cv, Function.update s.cache c.request.key _ f.request.key = some cv ∧ _
    by_cases hkey : f.request.key = c.request.key
    · rw [hkey, Function.update_self]
      refine ⟨_, rfl, Nat.add_le_add_right ?_ _⟩
      rcases List.mem_append.mp (hdrop ▸ hf) with hf | hf
      · exact (Nat.le_add_right _ _).trans (hold f hf hkey)
      · rw [List.mem_singleton.mp hf]
    · rw [Function.update_of_ne hkey]
      rcases List.mem_append.mp (hdrop ▸ hf) with hf | hf
      · exact h.cached f hf
      · rw [List.mem_singleton.mp hf] at hkey
        exact absurd rfl hkey
  · -- the others that fetch do so for other keys
    have hi' : (s.insert ttlSecs c.request value).calls[i]? = some c := hi
    rw [getElem?_setPhase hi'] at hj
    split_ifs at hj with hij
    · obtain rfl := Option.some.inj hj
      rw [hphase] at hd
      cases hd
    · rcases List.mem_append.mp (hdrop ▸ hf) with hf | hf
      · exact h.expired j d hj hd f hf hkey
      · rw [List.mem_singleton.mp hf] at hkey
        exact absurd (hsound.oneFetch i j c d hi hj hc hd hkey) hij
  · show Bounded _ 1 (timesOf key ((s.fetched ++ _).drop n))
    rw [hdrop, timesOf, List.filter_append, List.map_append]
    by_cases hkey : c.request.key = key
    · rw [List.filter_cons_of_pos (by rw [decide_eq_true_eq]; exact hkey), List.filter_nil]
      refine (h.apart key).append ?_
      suffices hnone : recent (lifetime ttlSecs) s.now (timesOf key (s.fetched.drop n)) = [] by
        rw [hnone]
        exact Nat.zero_lt_one
      refine List.filter_eq_nil_iff.mpr fun t ht => ?_
      obtain ⟨f, hf, rfl⟩ := List.mem_map.mp ht
      obtain ⟨hf, hfkey⟩ := List.mem_filter.mp hf
      have := hold f hf ((of_decide_eq_true hfkey).trans hkey.symm)
      rw [decide_eq_true_eq]
      omega
    · rw [List.filter_cons_of_neg (by rw [decide_eq_true_eq]; exact hkey), List.filter_nil,
        List.map_nil, List.append_nil]
      exact h.apart key

theorem Spaced.onReply (h : Spaced ttlSecs n s) (hsound : Sound P ttlSecs s)
    (hi : s.calls[i]? = some c) (hc : c.phase.fetches = true) (attempt deadline : ℕ)
    (reply : Reply) : Spaced ttlSecs n (s.onReply x ttlSecs i c.request attempt deadline reply) := by
  unfold Gateway.onReply
  split
  · exact (h.insert hsound hi hc rfl _).release _
  · exact (h.settle hi rfl).release _
  · dsimp only
    split_ifs
    · exact (h.settle hi rfl).release _
    · exact h.setPhase hi fun _ => hc

/-! ## Runs -/

theorem spaced_step {l : Step} (h : Spaced ttlSecs n s) (hsound : Sound P ttlSecs s)
    (hok : Keeps s l) (hstep : step x ttlSecs s l = some s') : Spaced ttlSecs n s' := by
  cases l with
  | get request =>
    obtain rfl := Option.some.inj hstep
    refine h.move (fun j d hj hd => ?_) rfl rfl le_rfl
    have hj' : (s.calls ++ [⟨request, .begun⟩])[j]? = some d := hj
    rcases lt_or_ge j s.calls.length with hlt | hge
    · rw [List.getElem?_append_left hlt] at hj'
      exact ⟨d, hj', hd, rfl⟩
    · rw [List.getElem?_append_right hge, List.getElem?_singleton] at hj'
      split_ifs at hj' with hzero
      rw [← Option.some.inj hj'] at hd
      cases hd
  | clear => exact hok.elim
  | tick nanos =>
    obtain rfl := Option.some.inj hstep
    exact h.move (fun _ d hj hd => ⟨d, hj, hd, rfl⟩) rfl rfl (Nat.le_add_right _ _)
  | look i =>
    obtain ⟨c, hi, hstep⟩ := Option.bind_eq_some_iff.mp hstep
    split at hstep
    · obtain rfl := Option.some.inj hstep
      exact h.settle hi rfl
    · obtain rfl := Option.some.inj hstep
      exact h.settle hi rfl
    · cases hstep
  | limit i allowed =>
    obtain ⟨c, hi, hstep⟩ := Option.bind_eq_some_iff.mp hstep
    split at hstep
    · obtain rfl := Option.some.inj hstep
      cases allowed
      · exact h.settle hi rfl
      · exact h.settle hi rfl
    · cases hstep
  | lock i =>
    obtain ⟨c, hi, hstep⟩ := Option.bind_eq_some_iff.mp hstep
    split at hstep
    · obtain rfl := Option.some.inj hstep
      exact (h.settle hi rfl).setLocks _
    · cases hstep
  | lookAgain i =>
    obtain ⟨c, hi, hstep⟩ := Option.bind_eq_some_iff.mp hstep
    split at hstep
    · obtain rfl := Option.some.inj hstep
      exact (h.settle hi rfl).release _
    · rename_i hphase hlookup
      obtain rfl := Option.some.inj hstep
      exact h.send hi hlookup
    · cases hstep
  | answer i reply =>
    obtain ⟨c, hi, hstep⟩ := Option.bind_eq_some_iff.mp hstep
    split at hstep
    · rename_i attempt deadline hphase
      obtain rfl := Option.some.inj hstep
      exact h.onReply hsound hi (by rw [hphase]; rfl) attempt deadline reply
    · cases hstep
  | wake i =>
    obtain ⟨c, hi, hstep⟩ := Option.bind_eq_some_iff.mp hstep
    split at hstep
    · rename_i attempt deadline till hphase
      split_ifs at hstep
      obtain rfl := Option.some.inj hstep
      exact h.setPhase hi fun _ => by rw [hphase]; rfl
    · cases hstep
  | drop i =>
    obtain ⟨c, hi, hstep⟩ := Option.bind_eq_some_iff.mp hstep
    split_ifs at hstep with hover hholds
    · obtain rfl := Option.some.inj hstep
      exact (h.settle hi rfl).release _
    · obtain rfl := Option.some.inj hstep
      exact h.settle hi rfl

theorem gets_any (s : Gateway) (l : Step) : Gets (fun _ => True) s l := by
  cases l <;> trivial

/-- From any state on, and while `clear_cache` is not called: in `k` lifetimes, wherever they begin,
    a key is fetched at most `k` times. -/
theorem load_bounded (x : Extern) (ttlSecs : Int64) (s s' : Gateway)
    (hrun : Reachable (step x ttlSecs) .start s) (hquiet : Reaches (step x ttlSecs) Keeps s s')
    (key : String) (k : ℕ) (begin : ℤ) :
    (window (k * lifetime ttlSecs) begin
      (timesOf key (s'.fetched.drop s.fetched.length))).length ≤ k := by
  have hsound : Sound (fun _ => True) ttlSecs s := sound_run (hrun.mono fun s l _ => gets_any s l)
  have hspaced : Sound (fun _ => True) ttlSecs s' ∧ Spaced ttlSecs s.fetched.length s' :=
    hquiet.invariant
      (I := fun t => Sound (fun _ => True) ttlSecs t ∧ Spaced ttlSecs s.fetched.length t)
      ⟨hsound, .start s⟩ fun t l t' h hok hstep =>
        ⟨sound_step h.1 (gets_any t l) hstep, spaced_step h.2 h.1 hok hstep⟩
  have hmul := (hspaced.2.apart key).length_window_mul k begin
  rwa [Nat.mul_one] at hmul

/-- Two calls, the second when the value of the first has expired. -/
theorem load_bounded_twice : ∃ s' : Gateway, Reaches (step sampleExtern 60) Keeps .start s' ∧
    s'.fetched.map (fun f => f.time) = [0, 60 * 10 ^ 9] ∧
    (window ((1 : ℕ) * lifetime 60) 0
      (timesOf sampleRequests.2.key (s'.fetched.drop 0))).length ≤ 1 := by
  have htest : ∀ (s : Gateway) (l : Step), (match l with
      | .clear => false
      | _ => true) = true → Keeps s l := by
    intro s l h
    cases l with
    | clear => cases h
    | _ => trivial
  have hrun : (runWhile (step sampleExtern 60) (fun _ l => match l with
      | .clear => false
      | _ => true) .start
        [.get sampleRequests.2, .look 0, .limit 0 true, .lock 0, .lookAgain 0,
          .answer 0 (.response 200 (.ok "[]")), .tick (60 * 10 ^ 9), .get sampleRequests.2, .look 1,
          .limit 1 true, .lock 1, .lookAgain 1, .answer 1 (.response 200 (.ok "[]"))]).any
      (fun s : Gateway => decide (s.fetched.map (fun f => f.time) = [0, 60 * 10 ^ 9])) = true := by decide +kernel
  obtain ⟨s', hs', htimes⟩ := exists_reaches_of_runWhile htest hrun
  exact ⟨s', hs', of_decide_eq_true htimes,
    load_bounded sampleExtern 60 .start s' .start hs' _ 1 0⟩

end Ppb.Phira
