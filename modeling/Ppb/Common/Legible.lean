import Mathlib

/-!
# Codes that can be read from the front of a text

`Legible code ok stop a`: wherever the code of `a` stands at the front of a text, no
other value can be read there. `stop` is what the rest of the text has to meet for the
code to end where it ends (a number is only over when no digit follows), and `ok` are the
values that are written at all.

* `legible_of_span`: a code whose letters all are of one kind, followed by a letter of
  another kind.
* `legible_flatMap`: a text, letter by letter, up to a closing mark.
* `legible_separated`: a list with a mark between its entries, up to a closing mark.
-/

namespace Ppb

variable {α σ : Type} {code : α → List σ} {ok : α → Prop} {stop : List σ → Prop} {a b : α}
  {r r' : List σ}

/-- Only `a` can be read where the code of `a` stands. -/
def Legible (code : α → List σ) (ok : α → Prop) (stop : List σ → Prop) (a : α) : Prop :=
  ∀ ⦃b : α⦄ ⦃r r' : List σ⦄, ok b → stop r → stop r' → code a ++ r = code b ++ r' →
    a = b ∧ r = r'

theorem Legible.eq (h : Legible code ok stop a) (hstop : stop []) (hb : ok b)
    (heq : code a = code b) : a = b :=
  (h hb hstop hstop (congrArg (· ++ []) heq)).1

/-- The rest does not go on with a letter of kind `p`. -/
def EndsSpan (p : σ → Bool) (r : List σ) : Prop := ∀ c ∈ r.head?, p c = false

theorem takeWhile_of_endsSpan {p : σ → Bool} (h : EndsSpan p r) : r.takeWhile p = [] := by
  cases r with
  | nil => rfl
  | cons c r => rw [List.takeWhile_cons, h c rfl]; rfl

/-- A code of letters of kind `p` ends where the letters of kind `p` end. -/
theorem legible_of_span {p : σ → Bool} (hspan : ∀ a, ok a → ∀ c ∈ code a, p c = true)
    (hinj : ∀ a b, ok a → ok b → code a = code b → a = b) (ha : ok a) :
    Legible code ok (EndsSpan p) a := by
  intro b r r' hb hr hr' heq
  have hcode : code a = code b := by
    have htake := congrArg (List.takeWhile p) heq
    rw [List.takeWhile_append_of_pos (hspan a ha), List.takeWhile_append_of_pos (hspan b hb),
      takeWhile_of_endsSpan hr, takeWhile_of_endsSpan hr', List.append_nil, List.append_nil]
      at htake
    exact htake
  rw [hcode] at heq
  exact ⟨hinj a b ha hb hcode, List.append_cancel_left heq⟩

/-- What can be decoded can be read. -/
theorem legible_of_decode (decode : List σ → Option (α × List σ))
    (h : ∀ a r, decode (code a ++ r) = some (a, r)) (a : α) : Legible code ok stop a := by
  intro b r r' _ _ _ heq
  have hsome : some (a, r) = some (b, r') := by rw [← h a r, heq, h b r']
  rw [Option.some.injEq, Prod.mk.injEq] at hsome
  exact hsome

/-- `mark` does not stand at the front of the text. -/
def Unmarked (mark : σ) (s : List σ) : Prop := ∃ c t, s = c :: t ∧ c ≠ mark

theorem Unmarked.append {mark : σ} {s : List σ} (h : Unmarked mark s) (r : List σ) :
    Unmarked mark (s ++ r) := by
  obtain ⟨c, t, rfl, hc⟩ := h
  exact ⟨c, t ++ r, rfl, hc⟩

theorem Unmarked.ne_cons {mark : σ} {s : List σ} (h : Unmarked mark s) : s ≠ mark :: r := by
  obtain ⟨c, t, rfl, hc⟩ := h
  intro heq
  exact hc (List.cons.inj heq).1

/-- A word is read letter by letter up to the mark, which no letter begins with. -/
theorem legible_flatMap {mark : σ} (hletter : ∀ a, Legible code (fun _ => True) (fun _ => True) a)
    (hmark : ∀ a, Unmarked mark (code a)) (as : List α) :
    Legible (fun as : List α => as.flatMap code) (fun _ => True) (fun r => ∃ t, r = mark :: t)
      as := by
  intro bs r r' _ hr hr' heq
  obtain ⟨t, rfl⟩ := hr
  obtain ⟨t', rfl⟩ := hr'
  induction as generalizing bs with
  | nil =>
    cases bs with
    | nil => exact ⟨rfl, heq⟩
    | cons b bs =>
      have hunmarked : Unmarked mark ((b :: bs).flatMap code ++ mark :: t') := by
        rw [List.flatMap_cons, List.append_assoc]
        exact (hmark b).append _
      exact absurd heq.symm hunmarked.ne_cons
  | cons a as ih =>
    cases bs with
    | nil =>
      have hunmarked : Unmarked mark ((a :: as).flatMap code ++ mark :: t) := by
        rw [List.flatMap_cons, List.append_assoc]
        exact (hmark a).append _
      exact absurd heq hunmarked.ne_cons
    | cons b bs =>
      simp only [List.flatMap_cons, List.append_assoc] at heq
      obtain ⟨rfl, hrest⟩ := hletter a trivial trivial trivial heq
      obtain ⟨rfl, hr⟩ := ih hrest
      exact ⟨rfl, hr⟩

/-- The entries with `sep` between two of them. -/
def separated (sep : σ) (code : α → List σ) : List α → List σ
  | [] => []
  | [a] => code a
  | a :: b :: as => code a ++ sep :: separated sep code (b :: as)

/-- What follows the first entry: the closing mark, or `sep` and the other entries. -/
theorem separated_cons_append (sep close : σ) (a : α) (as : List α) (r : List σ) :
    separated sep code (a :: as) ++ close :: r =
      code a ++ (match as with
        | [] => close :: r
        | b :: bs => sep :: (separated sep code (b :: bs) ++ close :: r)) := by
  cases as with
  | nil => rfl
  | cons b bs => simp only [separated, List.append_assoc, List.cons_append]

/-- A list is read entry by entry up to the closing mark, which no entry begins with. -/
theorem legible_separated {sep close : σ} (hne : sep ≠ close)
    (hsep : ∀ r, stop (sep :: r)) (hclose : ∀ r, stop (close :: r))
    (hunmarked : ∀ a, ok a → Unmarked close (code a)) {as : List α}
    (has : ∀ a ∈ as, ok a ∧ Legible code ok stop a) :
    Legible (separated sep code) (fun bs => ∀ b ∈ bs, ok b) (fun r => ∃ t, r = close :: t) as := by
  intro bs r r' hbs hr hr' heq
  obtain ⟨t, rfl⟩ := hr
  obtain ⟨t', rfl⟩ := hr'
  induction as generalizing bs with
  | nil =>
    cases bs with
    | nil => exact ⟨rfl, heq⟩
    | cons b bs =>
      rw [separated_cons_append] at heq
      exact absurd heq.symm ((hunmarked b (hbs b List.mem_cons_self)).append _).ne_cons
  | cons a as ih =>
    obtain ⟨ha, hlegible⟩ := has a List.mem_cons_self
    cases bs with
    | nil =>
      rw [separated_cons_append] at heq
      exact absurd heq ((hunmarked a ha).append _).ne_cons
    | cons b bs =>
      rw [separated_cons_append, separated_cons_append] at heq
      have hb := hbs b List.mem_cons_self
      have hbs' : ∀ b ∈ bs, ok b := fun b h => hbs b (List.mem_cons_of_mem _ h)
      -- the entries agree, and then both lists end here or both go on
      cases as with
      | nil =>
        cases bs with
        | nil =>
          obtain ⟨rfl, hrest⟩ := hlegible hb (hclose t) (hclose t') heq
          exact ⟨rfl, hrest⟩
        | cons b' bs =>
          have hrest := (hlegible hb (hclose t) (hsep _) heq).2
          exact absurd (List.cons.inj hrest).1 hne.symm
      | cons a' as =>
        cases bs with
        | nil =>
          have hrest := (hlegible hb (hsep _) (hclose t') heq).2
          exact absurd (List.cons.inj hrest).1 hne
        | cons b' bs =>
          obtain ⟨rfl, hrest⟩ := hlegible hb (hsep _) (hsep _) heq
          obtain ⟨htl, hr⟩ := ih (fun a h => has a (List.mem_cons_of_mem _ h)) hbs'
            (List.cons.inj hrest).2
          exact ⟨by rw [htl], hr⟩

end Ppb
