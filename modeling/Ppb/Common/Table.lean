import Mathlib

/-!
# Tables with a uniqueness constraint

A database table is a list of rows in which any two rows are compatible: a
primary key, a unique index and a partial unique index are all conditions on
pairs of rows. `Table ρ compat` carries that condition, so a table that
violates its constraint cannot be built. `INSERT` and `UPDATE` compute the new
rows and commit them only if the constraint still holds (`none` is the
constraint violation the database reports, and nothing is written).
-/

namespace Ppb

/-- Rows of type `ρ`, pairwise compatible. -/
structure Table (ρ : Type) (compat : ρ → ρ → Prop) where
  rows : List ρ
  wf : rows.Pairwise compat

namespace Table

variable {ρ : Type} {compat : ρ → ρ → Prop}

instance : Membership ρ (Table ρ compat) := ⟨fun t r => r ∈ t.rows⟩

theorem mem_def {t : Table ρ compat} {r : ρ} : r ∈ t ↔ r ∈ t.rows := Iff.rfl

instance (t : Table ρ compat) (p : ρ → Prop) [DecidablePred p] : Decidable (∀ r ∈ t, p r) :=
  inferInstanceAs (Decidable (∀ r ∈ t.rows, p r))

instance (t : Table ρ compat) (p : ρ → Prop) [DecidablePred p] : Decidable (∃ r ∈ t, p r) :=
  inferInstanceAs (Decidable (∃ r ∈ t.rows, p r))

/-- The empty table. -/
def empty : Table ρ compat := ⟨[], .nil⟩

/-- `DELETE … WHERE p`. -/
def delete (t : Table ρ compat) (p : ρ → Bool) : Table ρ compat :=
  ⟨t.rows.filter fun r => !p r, t.wf.filter _⟩

@[simp] theorem mem_delete {t : Table ρ compat} {p : ρ → Bool} {x : ρ} :
    x ∈ t.delete p ↔ x ∈ t ∧ p x = false := by
  simp [mem_def, delete]

/-- Two rows of a table are equal or compatible. -/
theorem eq_or_compat {t : Table ρ compat} {a b : ρ} (ha : a ∈ t) (hb : b ∈ t) :
    a = b ∨ compat a b ∨ compat b a := by
  obtain ⟨i, hi, rfl⟩ := List.getElem_of_mem ha
  obtain ⟨j, hj, rfl⟩ := List.getElem_of_mem hb
  have hwf := List.pairwise_iff_getElem.mp t.wf
  rcases lt_trichotomy i j with h | rfl | h
  · exact .inr (.inl (hwf i j hi hj h))
  · exact .inl rfl
  · exact .inr (.inr (hwf j i hj hi h))

variable [DecidableRel compat]

/-- The constraint check at the end of a statement. -/
def commit (rows : List ρ) : Option (Table ρ compat) :=
  if h : rows.Pairwise compat then some ⟨rows, h⟩ else none

/-- `INSERT INTO … VALUES r`. -/
def insert (t : Table ρ compat) (r : ρ) : Option (Table ρ compat) := commit (t.rows ++ [r])

/-- `UPDATE … SET f WHERE p`. -/
def update (t : Table ρ compat) (p : ρ → Bool) (f : ρ → ρ) : Option (Table ρ compat) :=
  commit (t.rows.map fun r => if p r then f r else r)

theorem commit_eq_some {rows : List ρ} {t : Table ρ compat} :
    commit rows = some t ↔ t.rows = rows := by
  unfold commit
  split_ifs with h
  · constructor
    · rintro ⟨⟩; rfl
    · rintro rfl; rfl
  · constructor
    · rintro ⟨⟩
    · rintro rfl; exact absurd t.wf h

theorem mem_insert {t t' : Table ρ compat} {r x : ρ} (h : t.insert r = some t') :
    x ∈ t' ↔ x ∈ t ∨ x = r := by
  rw [insert, commit_eq_some] at h
  simp [mem_def, h]

theorem mem_update {t t' : Table ρ compat} {p : ρ → Bool} {f : ρ → ρ} {x : ρ}
    (h : t.update p f = some t') :
    x ∈ t' ↔ ∃ r ∈ t, (if p r then f r else r) = x := by
  rw [update, commit_eq_some] at h
  simp [mem_def, h]

/-- A row that an `INSERT` added is compatible with every row it was added to. -/
theorem compat_of_insert {t t' : Table ρ compat} {r x : ρ} (h : t.insert r = some t') (hx : x ∈ t) :
    compat x r := by
  rw [insert, commit_eq_some] at h
  have := t'.wf
  rw [h, List.pairwise_append] at this
  exact this.2.2 x hx r (by simp)

/-- An `INSERT` of a row that is compatible with all others always commits. -/
theorem exists_insert {t : Table ρ compat} {r : ρ} (h : ∀ x ∈ t, compat x r) :
    ∃ t', t.insert r = some t' := by
  have hwf : (t.rows ++ [r]).Pairwise compat := by
    rw [List.pairwise_append]
    refine ⟨t.wf, List.pairwise_singleton _ _, fun x hx y hy => ?_⟩
    rw [List.mem_singleton.mp hy]
    exact h x hx
  exact ⟨⟨_, hwf⟩, by rw [insert, commit_eq_some]⟩

/-- An `UPDATE` whose new rows are compatible whenever the old ones were always
    commits. -/
theorem exists_update {t : Table ρ compat} {p : ρ → Bool} {f : ρ → ρ}
    (h : ∀ a b, compat a b → compat (if p a then f a else a) (if p b then f b else b)) :
    ∃ t', t.update p f = some t' :=
  ⟨⟨_, t.wf.map _ h⟩, by rw [update, commit_eq_some]⟩

end Table

end Ppb
