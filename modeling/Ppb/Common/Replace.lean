import Ppb.Common.Text

/-!
# Replacing in text

What `str::replace` does to a text, by whether the pattern stands in it.

* `replaceFrom_single`: a pattern of one character is replaced wherever it stands.
* `toList_replaceChars`: several characters, one after the other, if no replacement brings in a
  character that is still to be replaced.
* `replaceFrom_of_absent`: a text without the pattern stays as it is.
* `replaceFrom_ne_self`: a text with the pattern changes, unless the pattern is
  replaced by itself. Where both are of one length the first match shows this, and
  where they are not the length of the whole text does.
-/

namespace Ppb.Text

variable {pat new : List Char}

theorem replaceFrom_skip (pat new : List Char) (k : ℕ) (s : List Char) :
    replaceFrom pat new k s = replaceFrom pat new 0 (s.drop k) := by
  induction s generalizing k with
  | nil => simp [replaceFrom]
  | cons c s ih =>
    match k with
    | 0 => rfl
    | k + 1 =>
      rw [replaceFrom, List.drop_succ_cons]
      exact ih k

/-- A match at the front. -/
theorem replaceFrom_append (hpat : pat ≠ []) (q : List Char) :
    replaceFrom pat new 0 (pat ++ q) = new ++ replaceFrom pat new 0 q := by
  obtain ⟨c, p, rfl⟩ := List.exists_cons_of_ne_nil hpat
  have hpre : (c :: p).isPrefixOf (c :: (p ++ q)) = true := by
    rw [List.isPrefixOf_iff_prefix, ← List.cons_append]
    exact List.prefix_append _ _
  rw [List.cons_append, replaceFrom, if_pos hpre, replaceFrom_skip]
  have hdrop : (p ++ q).drop ((c :: p).length - 1) = q := by simp
  rw [hdrop]

/-- No match at the front. -/
theorem replaceFrom_cons {c : Char} {s : List Char} (hpre : ¬ pat <+: c :: s) :
    replaceFrom pat new 0 (c :: s) = c :: replaceFrom pat new 0 s := by
  rw [replaceFrom, if_neg]
  rw [List.isPrefixOf_iff_prefix]
  exact hpre

/-- A single character is replaced wherever it stands. -/
theorem replaceFrom_single (c : Char) (new s : List Char) :
    replaceFrom [c] new 0 s = s.flatMap fun d => if d = c then new else [d] := by
  induction s with
  | nil => rfl
  | cons d s ih =>
    rw [List.flatMap_cons]
    by_cases hd : d = c
    · rw [if_pos hd, hd]
      show replaceFrom [c] new 0 ([c] ++ s) = _
      rw [replaceFrom_append (by simp), ih]
    · rw [if_neg hd, replaceFrom_cons (by simpa using Ne.symm hd), ih]
      rfl

/-- Characters are replaced one after the other. -/
def replaceChars (rs : List (Char × String)) (s : String) : String :=
  rs.foldl (fun s r => replaceAll s (String.singleton r.1) r.2) s

/-- What stands for a character. -/
def charText (rs : List (Char × String)) (c : Char) : List Char :=
  ((rs.find? fun r => r.1 == c).map fun r => r.2.toList).getD [c]

theorem charText_cons (r : Char × String) (rs : List (Char × String)) (c : Char) :
    charText (r :: rs) c = if c = r.1 then r.2.toList else charText rs c := by
  rw [charText, List.find?_cons]
  by_cases hc : c = r.1
  · simp [hc]
  · have hne : (r.1 == c) = false := by simpa using Ne.symm hc
    rw [hne, if_neg hc]
    rfl

theorem charText_of_not_mem {rs : List (Char × String)} {c : Char} (h : ∀ r ∈ rs, r.1 ≠ c) :
    charText rs c = [c] := by
  rw [charText, List.find?_eq_none.mpr fun r hr => by simpa using h r hr]
  rfl

/-- The replacements are one pass, unless one brings in what a later one replaces. -/
theorem toList_replaceChars {rs : List (Char × String)}
    (h : rs.Pairwise fun a b => b.1 ∉ a.2.toList) (s : String) :
    (replaceChars rs s).toList = s.toList.flatMap (charText rs) := by
  induction rs generalizing s with
  | nil =>
    show s.toList = s.toList.flatMap fun c => [c]
    rw [List.flatMap_singleton']
  | cons r rs ih =>
    rw [List.pairwise_cons] at h
    show (replaceChars rs (replaceAll s (String.singleton r.1) r.2)).toList = _
    rw [ih h.2, replaceAll, String.toList_ofList, String.toList_singleton, replaceFrom_single,
      List.flatMap_assoc]
    congr 1
    funext c
    rw [charText_cons]
    by_cases hc : c = r.1
    · rw [if_pos hc, if_pos hc]
      have hkept : ∀ d ∈ r.2.toList, charText rs d = [d] := fun d hd =>
        charText_of_not_mem fun r' hr' heq => h.1 r' hr' (heq ▸ hd)
      rw [List.flatMap_congr hkept, List.flatMap_singleton']
    · rw [if_neg hc, if_neg hc, List.flatMap_singleton]

theorem replaceFrom_of_absent {s : List Char} (h : ¬ pat <:+: s) :
    replaceFrom pat new 0 s = s := by
  induction s with
  | nil => rfl
  | cons c s ih =>
    rw [List.infix_cons_iff, not_or] at h
    rw [replaceFrom_cons h.1, ih h.2]

/-- The text up to the first match. -/
theorem exists_first_match (hpat : pat ≠ []) (new : List Char) {s : List Char} (h : pat <:+: s) :
    ∃ p q, s = p ++ (pat ++ q) ∧
      replaceFrom pat new 0 s = p ++ (new ++ replaceFrom pat new 0 q) := by
  induction s with
  | nil => exact absurd (List.infix_nil.mp h) hpat
  | cons c s ih =>
    by_cases hpre : pat <+: c :: s
    · obtain ⟨q, hq⟩ := hpre
      refine ⟨[], q, hq.symm, ?_⟩
      rw [← hq, replaceFrom_append hpat]
      rfl
    · obtain ⟨p, q, hs, hr⟩ := ih ((List.infix_cons_iff.mp h).resolve_left hpre)
      refine ⟨c :: p, q, ?_, ?_⟩
      · rw [hs]
        rfl
      · rw [replaceFrom_cons hpre, hr]
        rfl

/-- The length of the text after `k` matches. -/
theorem exists_length_replaceFrom (hpat : pat ≠ []) (new s : List Char) :
    ∃ k, (replaceFrom pat new 0 s).length + k * pat.length = s.length + k * new.length := by
  induction hn : s.length using Nat.strong_induction_on generalizing s with
  | _ n ih =>
    by_cases hin : pat <:+: s
    · obtain ⟨p, q, hs, hr⟩ := exists_first_match hpat new hin
      have hpos : 0 < pat.length := List.length_pos_iff.mpr hpat
      have hlen : n = p.length + (pat.length + q.length) := by rw [← hn, hs]; simp
      obtain ⟨k, hk⟩ := ih q.length (by omega) q rfl
      refine ⟨k + 1, ?_⟩
      rw [hr, List.length_append, List.length_append, Nat.succ_mul, Nat.succ_mul]
      omega
    · exact ⟨0, by rw [replaceFrom_of_absent hin, hn]; omega⟩

theorem replaceFrom_ne_self (hpat : pat ≠ []) (hne : new ≠ pat) {s : List Char}
    (h : pat <:+: s) : replaceFrom pat new 0 s ≠ s := by
  obtain ⟨p, q, hs, hr⟩ := exists_first_match hpat new h
  intro heq
  have htail : new ++ replaceFrom pat new 0 q = pat ++ q := by
    rw [hr, hs] at heq
    exact List.append_cancel_left heq
  have hlen := congrArg List.length htail
  rw [List.length_append, List.length_append] at hlen
  -- with the match in front, the same text has `k + 1` matches of the same total length
  have hsame : new.length = pat.length := by
    obtain ⟨k, hk⟩ := exists_length_replaceFrom hpat new q
    have hmul : (k + 1) * new.length = (k + 1) * pat.length := by
      rw [Nat.succ_mul, Nat.succ_mul]
      omega
    exact Nat.eq_of_mul_eq_mul_left (Nat.succ_pos k) hmul
  exact hne (List.append_inj htail hsame).1

end Ppb.Text
