import Mathlib

/-!
# Sliding windows

A log of times in increasing order, and the part of it that is not older than a
window of `w`.

* `recent_recent`: what is too old now is too old later, so a log may be pruned at
  any time.
* `Bounded`: no window of length `w`, wherever it starts, holds more than `n` entries;
  `Bounded.append`: a log stays so if an entry is added only while fewer than `n` are
  recent.
* `Bounded.length_window_mul`: `k` windows in a row hold at most `k * n`.
* `length_recent_of_lt`, `length_recent_of_le`: the recent entries become fewer exactly
  when the oldest of them leaves the window.
-/

namespace Ppb.SlidingWindow

variable {w now later : ℤ} {n : ℕ} {log : List ℤ}

/-- The entries of the last `w`. -/
def recent (w now : ℤ) (log : List ℤ) : List ℤ := log.filter fun t => now - t < w

theorem mem_recent {t : ℤ} : t ∈ recent w now log ↔ t ∈ log ∧ now - t < w := by
  rw [recent, List.mem_filter, decide_eq_true_eq]

theorem recent_append (w now : ℤ) (log log' : List ℤ) :
    recent w now (log ++ log') = recent w now log ++ recent w now log' :=
  List.filter_append ..

theorem recent_recent (h : now ≤ later) (w : ℤ) (log : List ℤ) :
    recent w later (recent w now log) = recent w later log := by
  rw [recent, recent, recent, List.filter_filter]
  apply List.filter_congr
  intro t _
  rw [← Bool.decide_and, decide_eq_decide]
  omega

/-- The entries from `s` up to, but not with, `s + w`. -/
def window (w s : ℤ) (log : List ℤ) : List ℤ := log.filter fun t => s ≤ t ∧ t < s + w

/-- Every window of length `w` holds at most `n` entries. -/
def Bounded (w : ℤ) (n : ℕ) (log : List ℤ) : Prop := ∀ s, (window w s log).length ≤ n

/-- The recent entries are those of one window. -/
theorem Bounded.length_recent (h : Bounded w n log) (hpast : ∀ t ∈ log, t ≤ now) :
    (recent w now log).length ≤ n := by
  have heq : recent w now log = window w (now - w + 1) log := by
    apply List.filter_congr
    intro t ht
    have := hpast t ht
    rw [decide_eq_decide]
    omega
  rw [heq]
  exact h _

/-- Up to a window that holds an entry of now, only recent entries count. -/
theorem Bounded.append (h : Bounded w n log) (hfree : (recent w now log).length < n) :
    Bounded w n (log ++ [now]) := by
  intro s
  rw [window, List.filter_append, List.length_append]
  by_cases hs : s ≤ now ∧ now < s + w
  · have hsub : (window w s log).length ≤ (recent w now log).length := by
      apply List.Sublist.length_le
      apply List.monotone_filter_right
      intro t ht
      rw [decide_eq_true_eq] at ht ⊢
      omega
    have hone : ([now].filter fun t => s ≤ t ∧ t < s + w).length ≤ 1 := List.length_filter_le _ _
    rw [window] at hsub
    omega
  · have hnone : [now].filter (fun t => s ≤ t ∧ t < s + w) = [] := by
      rw [List.filter_cons_of_neg (by rw [decide_eq_true_eq]; exact hs), List.filter_nil]
    have := h s
    rw [window] at this
    rw [hnone, List.length_nil, Nat.add_zero]
    exact this

theorem length_filter_le_add {p q r : ℤ → Bool} (h : ∀ t, p t = true → q t = true ∨ r t = true)
    (log : List ℤ) : (log.filter p).length ≤ (log.filter q).length + (log.filter r).length := by
  induction log with
  | nil => exact Nat.zero_le _
  | cons t log ih =>
    have ht := h t
    rw [List.filter_cons, List.filter_cons, List.filter_cons]
    grind

/-- A span of `k` windows is a window and a span of one fewer. -/
theorem Bounded.length_window_mul (h : Bounded w n log) (k : ℕ) (s : ℤ) :
    (window (k * w) s log).length ≤ k * n := by
  induction k generalizing s with
  | zero =>
    have hnone : window ((0 : ℕ) * w) s log = [] := by
      refine List.filter_eq_nil_iff.mpr fun t _ => ?_
      rw [decide_eq_true_eq]
      push_cast
      omega
    rw [hnone, List.length_nil]
    omega
  | succ k ih =>
    have hsplit := length_filter_le_add (p := fun t => decide (s ≤ t ∧ t < s + (k + 1 : ℕ) * w))
      (q := fun t => decide (s ≤ t ∧ t < s + w))
      (r := fun t => decide (s + w ≤ t ∧ t < s + w + k * w)) (fun t ht => by
        simp only [decide_eq_true_eq] at ht ⊢
        have hmul : ((k + 1 : ℕ) : ℤ) * w = k * w + w := by
          push_cast
          ring
        omega) log
    have hfirst := h s
    have hrest := ih (s + w)
    rw [window] at hfirst hrest ⊢
    calc _ ≤ _ := hsplit
      _ ≤ n + k * n := Nat.add_le_add hfirst hrest
      _ = (k + 1) * n := by ring

/-- While the oldest recent entry is in the window, all of them are. -/
theorem length_recent_of_lt {oldest : ℤ} {rest : List ℤ} (hsorted : log.Pairwise (· ≤ ·))
    (hrecent : recent w now log = oldest :: rest) (h : later - oldest < w) :
    (recent w now log).length ≤ (recent w later log).length := by
  apply List.Sublist.length_le
  have hself : recent w now log = recent w later (recent w now log) := by
    symm
    apply List.filter_eq_self.mpr
    intro t ht
    have hold : oldest ≤ t := by
      have hs : (recent w now log).Pairwise (· ≤ ·) := hsorted.filter _
      rw [hrecent] at hs ht
      rcases List.mem_cons.mp ht with rfl | hrest
      · exact le_rfl
      · exact List.rel_of_pairwise_cons hs hrest
    rw [decide_eq_true_eq]
    omega
  rw [hself]
  exact List.filter_sublist.filter _

/-- Once it has left, there are fewer. -/
theorem length_recent_of_le {oldest : ℤ} {rest : List ℤ} (hnow : now ≤ later)
    (hrecent : recent w now log = oldest :: rest) (h : w ≤ later - oldest) :
    (recent w later log).length < (recent w now log).length := by
  rw [← recent_recent hnow, hrecent, recent, List.filter_cons_of_neg]
  · rw [List.length_cons]
    exact Nat.lt_succ_of_le (List.length_filter_le _ _)
  · rw [decide_eq_true_eq]
    omega

end Ppb.SlidingWindow
