import Mathlib.Data.List.Perm.Basic

/-!
# Texts that join names and values

A pair of a name and a value is written `name eq value`, and a list of pairs is
the written pairs with `sep` between them. Nothing is escaped, so the list can be
read back only where the names and values leave the two letters alone.

* `Plain`: the name holds neither letter, and the value no `eq` after a `sep`.
* `join_injective`: a list of plain pairs is given by its text.
* `perm_of_join_eq`: if the written pairs are sorted before they are joined, the list
  is given up to its order.
-/

namespace Ppb.JoinedPairs

variable {α : Type*} {sep eq : α} {p q : List α × List α} {ps qs : List (List α × List α)}

/-- A name and its value. -/
def write (eq : α) (p : List α × List α) : List α := p.1 ++ eq :: p.2

/-- The letters stand where the pair can still be read back. -/
structure Plain (sep eq : α) (p : List α × List α) : Prop where
  eq_notMem : eq ∉ p.1
  sep_notMem : sep ∉ p.1
  value : ∀ a b, p.2 = a ++ sep :: b → eq ∉ b

/-- Texts cut at the first `a` are equal only part by part. -/
theorem append_cons_inj {a : α} {x y u v : List α} (hx : a ∉ x) (hy : a ∉ y)
    (h : x ++ a :: u = y ++ a :: v) : x = y ∧ u = v := by
  obtain ⟨c, hc, hu⟩ | ⟨c, hc, hv⟩ := List.append_eq_append_iff.mp h
  · cases c with
    | nil =>
      rw [List.append_nil] at hc
      exact ⟨hc.symm, (List.cons.inj hu).2⟩
    | cons b c =>
      obtain ⟨rfl, -⟩ := List.cons.inj hu
      exact absurd (hc ▸ List.mem_append_right x List.mem_cons_self) hy
  · cases c with
    | nil =>
      rw [List.append_nil] at hc
      exact ⟨hc, (List.cons.inj hv).2.symm⟩
    | cons b c =>
      obtain ⟨rfl, -⟩ := List.cons.inj hv
      exact absurd (hc ▸ List.mem_append_right y List.mem_cons_self) hx

theorem write_inj (hp : Plain sep eq p) (hq : Plain sep eq q) (h : write eq p = write eq q) :
    p = q := by
  obtain ⟨hname, hvalue⟩ := append_cons_inj hp.eq_notMem hq.eq_notMem h
  exact Prod.ext hname hvalue

/-! ## Reading one pair -/

/-- What follows a written pair: nothing, or a separator and another pair. -/
def Follows (sep eq : α) (t : List α) : Prop :=
  t = [] ∨ ∃ n v, t = sep :: (n ++ eq :: v) ∧ sep ∉ n

/-- A pair ends where a separator and another pair follow: its value cannot run on into them. -/
theorem eq_nil_of_longer (hne : eq ≠ sep) (hp : Plain sep eq p) (hq : Plain sep eq q)
    {c u : List α} (hlonger : write eq q = write eq p ++ c) (ht : Follows sep eq (c ++ u))
    (hu : Follows sep eq u) : c = [] := by
  by_contra hc
  obtain ⟨d, c, rfl⟩ := List.exists_cons_of_ne_nil hc
  obtain hnil | ⟨n, v, hrest, hn⟩ := ht
  · cases hnil
  · obtain ⟨rfl, hnext⟩ := List.cons.inj hrest
    -- the separator stands in the value of `q`, so no `eq` comes after it there
    have hvalue : q.1 = p.1 ∧ q.2 = p.2 ++ d :: c := by
      rw [write, write, List.append_assoc, List.cons_append] at hlonger
      exact append_cons_inj hq.eq_notMem hp.eq_notMem hlonger
    have hnone : eq ∉ c := hq.value _ _ hvalue.2
    obtain ⟨e, he, hue⟩ | ⟨e, he, hve⟩ := List.append_eq_append_iff.mp hnext
    · -- the name of the next pair begins in `c` and ends in `u`
      obtain rfl | ⟨m, w, rfl, hm⟩ := hu
      · have hmem : eq ∈ e ++ eq :: v := List.mem_append_right e List.mem_cons_self
        rw [← hue] at hmem
        cases hmem
      · cases e with
        | nil => exact hne (List.cons.inj hue).1.symm
        | cons b e =>
          obtain ⟨rfl, -⟩ := List.cons.inj hue
          exact hn (he ▸ List.mem_append_right c List.mem_cons_self)
    · cases e with
      | nil =>
        obtain rfl | ⟨m, w, rfl, hm⟩ := hu
        · cases hve
        · exact hne (List.cons.inj hve).1
      | cons b e =>
        obtain ⟨rfl, -⟩ := List.cons.inj hve
        exact hnone (he ▸ List.mem_append_right n List.mem_cons_self)

theorem write_append_inj (hne : eq ≠ sep) (hp : Plain sep eq p) (hq : Plain sep eq q)
    {t u : List α} (ht : Follows sep eq t) (hu : Follows sep eq u)
    (h : write eq p ++ t = write eq q ++ u) : p = q ∧ t = u := by
  obtain ⟨c, hc, rfl⟩ | ⟨c, hc, rfl⟩ := List.append_eq_append_iff.mp h
  · obtain rfl := eq_nil_of_longer hne hp hq hc ht hu
    rw [List.append_nil] at hc
    exact ⟨write_inj hp hq hc.symm, rfl⟩
  · obtain rfl := eq_nil_of_longer hne hq hp hc hu ht
    rw [List.append_nil] at hc
    exact ⟨write_inj hp hq hc, rfl⟩

/-! ## Reading a list -/

/-- The written pairs with `sep` between them. -/
def join (sep eq : α) (ps : List (List α × List α)) : List α :=
  [sep].intercalate (ps.map (write eq))

/-- What follows the first pair of the list. -/
def rest (sep eq : α) : List (List α × List α) → List α
  | [] => []
  | p :: ps => sep :: join sep eq (p :: ps)

theorem join_cons (p : List α × List α) (ps : List (List α × List α)) :
    join sep eq (p :: ps) = write eq p ++ rest sep eq ps := by
  cases ps with
  | nil => simp [join, rest]
  | cons q qs => simp [join, rest]

theorem follows_rest (hps : ∀ p ∈ ps, Plain sep eq p) : Follows sep eq (rest sep eq ps) := by
  cases ps with
  | nil => exact .inl rfl
  | cons p ps =>
    refine .inr ⟨p.1, p.2 ++ rest sep eq ps, ?_, (hps p List.mem_cons_self).sep_notMem⟩
    rw [rest, join_cons, write, List.append_assoc, List.cons_append]

theorem join_cons_ne_nil (p : List α × List α) (ps : List (List α × List α)) :
    join sep eq (p :: ps) ≠ [] := by
  rw [join_cons, write]
  simp

/-- The text of plain pairs says which pairs they are. -/
theorem join_injective (hne : eq ≠ sep) (hps : ∀ p ∈ ps, Plain sep eq p)
    (hqs : ∀ q ∈ qs, Plain sep eq q) (h : join sep eq ps = join sep eq qs) : ps = qs := by
  induction ps generalizing qs with
  | nil =>
    cases qs with
    | nil => rfl
    | cons q qs => exact absurd h.symm (join_cons_ne_nil q qs)
  | cons p ps ih =>
    cases qs with
    | nil => exact absurd h (join_cons_ne_nil p ps)
    | cons q qs =>
      rw [List.forall_mem_cons] at hps hqs
      rw [join_cons, join_cons] at h
      obtain ⟨rfl, hrest⟩ :=
        write_append_inj hne hps.1 hqs.1 (follows_rest hps.2) (follows_rest hqs.2) h
      have hjoin : join sep eq ps = join sep eq qs := by
        cases ps with
        | nil =>
          cases qs with
          | nil => rfl
          | cons q qs => cases hrest
        | cons p ps =>
          cases qs with
          | nil => cases hrest
          | cons q qs => exact (List.cons.inj hrest).2
      rw [ih hps.2 hqs.2 hjoin]

/-- A reordering of written pairs is the writing of reordered pairs. -/
theorem exists_perm_of_write_perm {l : List (List α)} (h : l.Perm (ps.map (write eq))) :
    ∃ qs : List (List α × List α), qs.Perm ps ∧ l = qs.map (write eq) := by
  have hcomp : Relation.Comp (fun a b => a = b.map (write eq)) List.Perm l ps := by
    rw [List.eq_map_comp_perm]
    exact h
  obtain ⟨qs, hl, hqs⟩ := hcomp
  exact ⟨qs, hqs, hl⟩

/-- Written pairs that are reordered before they are joined: the text gives the pairs up to their
    order. -/
theorem perm_of_join_eq (hne : eq ≠ sep) (hps : ∀ p ∈ ps, Plain sep eq p)
    (hqs : ∀ q ∈ qs, Plain sep eq q) {l m : List (List α)} (hl : l.Perm (ps.map (write eq)))
    (hm : m.Perm (qs.map (write eq))) (h : [sep].intercalate l = [sep].intercalate m) :
    ps.Perm qs := by
  obtain ⟨ps', hps', rfl⟩ := exists_perm_of_write_perm hl
  obtain ⟨qs', hqs', rfl⟩ := exists_perm_of_write_perm hm
  have hlist : ps' = qs' := join_injective hne (fun p hp => hps p (hps'.mem_iff.mp hp))
    (fun q hq => hqs q (hqs'.mem_iff.mp hq)) h
  exact hps'.symm.trans (hlist ▸ hqs')

end Ppb.JoinedPairs
