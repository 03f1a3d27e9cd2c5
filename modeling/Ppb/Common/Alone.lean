import Ppb.Common.SharedStore

/-!
# Programs that run alone

For a program that nobody interferes with, every answer comes from the store that its own
questions have left.

* `Runs exec p s h P`: on every path of `p` from the store `s`, after the history `h`, the end
  meets `P` with the store, the history and the result. `runs_bind`, `runs_ask` are its rules.
* `Can exec p s P`: on some path from `s` the end meets `P`. `can_bind`, `can_ask` are its rules.
* `Runs.ends`, `Can.ends`: what they say about a single history.
-/

namespace Ppb

namespace Prog

open Shared

variable {Q : Type} {A : Q → Type} {S ε α β : Type} {exec : S → Event Q A → Option S} {s s' : S}
  {h : History Q A} {p : Prog Q A ε α}

/-! ## All paths -/

/-- On every path of `p` from `s` and `h` the end meets `P`. -/
def Runs (exec : S → Event Q A → Option S) :
    Prog Q A ε α → S → History Q A → (S → History Q A → Except ε α → Prop) → Prop
  | .done r, s, h, P => P s h r
  | .ask q next, s, h, P => ∀ a s', exec s ⟨q, a⟩ = some s' → Runs exec (next a) s' (h ++ [⟨q, a⟩]) P

variable {P P' : S → History Q A → Except ε α → Prop} {R : S → History Q A → Except ε β → Prop}

theorem runs_mono (hp : Runs exec p s h P) (hP : ∀ s h r, P s h r → P' s h r) :
    Runs exec p s h P' := by
  induction p generalizing s h with
  | done r => exact hP s h r hp
  | ask q next ih => exact fun a s' hexec => ih a (hp a s' hexec)

theorem runs_bind {k : α → Prog Q A ε β} (hp : Runs exec p s h P)
    (hok : ∀ s' h' a, P s' h' (.ok a) → Runs exec (k a) s' h' R)
    (herr : ∀ s' h' e, P s' h' (.error e) → R s' h' (.error e)) : Runs exec (p >>= k) s h R := by
  show Runs exec (p.bind k) s h R
  induction p generalizing s h with
  | done r =>
    cases r with
    | ok a => exact hok s h a hp
    | error e => exact herr s h e hp
  | ask q next ih => exact fun a s' hexec => ih a (hp a s' hexec)

/-- A question at the front of a program. -/
theorem runs_ask {q : Q} {k : A q → Prog Q A ε β}
    (hk : ∀ a s', exec s ⟨q, a⟩ = some s' → Runs exec (k a) s' (h ++ [⟨q, a⟩]) R) :
    Runs exec (query q >>= k) s h R := hk

/-- A check at the front of a program. -/
theorem runs_failIf_bind {c : Prop} [Decidable c] {e : ε} {k : Unit → Prog Q A ε β}
    (hc : c → R s h (.error e)) (hn : ¬ c → Runs exec (k ()) s h R) :
    Runs exec (failIf c e >>= k) s h R := by
  unfold failIf
  split_ifs with h'
  · exact hc h'
  · exact hn h'

theorem runs_ofExcept_bind {r : Except ε α} {k : α → Prog Q A ε β}
    (herr : ∀ e, r = .error e → R s h (.error e)) (hok : ∀ a, r = .ok a → Runs exec (k a) s h R) :
    Runs exec (ofExcept r >>= k) s h R := by
  cases r with
  | ok a => exact hok a rfl
  | error e => exact herr e rfl

/-- Questions of one kind, which leave the store alone. -/
theorem runs_of_only {C : Q → Prop} (hp : p.Only C)
    (hC : ∀ s e s', C e.1 → exec s e = some s' → s' = s) :
    Runs exec p s h fun s' h' _ => s' = s ∧ Extends C h h' := by
  suffices hfrom : ∀ h₁, Extends C h h₁ →
      Runs exec p s h₁ fun s' h' _ => s' = s ∧ Extends C h h' from hfrom h .refl
  induction p with
  | done r => exact fun h₁ hx => ⟨rfl, hx⟩
  | ask q next ih =>
    intro h₁ hx a s' hexec
    obtain rfl := hC s ⟨q, a⟩ s' hp.1 hexec
    exact ih a (hp.2 a) _ (hx.snoc hp.1)

/-- What holds on every path, of questions that leave the store alone. -/
theorem runs_of_wp {C : Q → Prop} {W : History Q A → Except ε α → Prop}
    (hp : wp (fun _ e => C e.1) p h W) (hC : ∀ s e s', C e.1 → exec s e = some s' → s' = s) :
    Runs exec p s h fun s' h' r => s' = s ∧ Extends C h h' ∧ W h' r := by
  suffices hfrom : ∀ h₁, Extends C h h₁ → wp (fun _ e => C e.1) p h₁ W →
      Runs exec p s h₁ fun s' h' r => s' = s ∧ Extends C h h' ∧ W h' r from hfrom h .refl hp
  clear hp
  induction p with
  | done r => exact fun h₁ hx hp => ⟨rfl, hx, hp⟩
  | ask q next ih =>
    intro h₁ hx hp a s' hexec
    obtain rfl := hC s ⟨q, a⟩ s' (hp a).1 hexec
    exact ih a _ (hx.snoc (hp a).1) (hp a).2

theorem Runs.ends [DecidableEq Q] {es : History Q A} {r : Except ε α} :
    ∀ {p : Prog Q A ε α} {s : S} {h : History Q A}, Runs exec p s h P →
      p.Ends es r → execAll exec s es = some s' → P s' (h ++ es) r := by
  induction es with
  | nil =>
    intro p s h hp hends hexec
    obtain rfl := Option.some.inj hexec
    rw [List.append_nil]
    cases p with
    | done r' =>
      obtain rfl : r' = r := Option.some.inj hends
      exact hp
    | ask q next => cases hends
  | cons e es ih =>
    intro p s h hp hends hexec
    obtain ⟨s₁, h₁, h₂⟩ := Option.bind_eq_some_iff.mp hexec
    rw [Ends, show e :: es = [e] ++ es from rfl, follow_append] at hends
    obtain ⟨p', hf, hr⟩ := Option.bind_eq_some_iff.mp hends
    obtain ⟨p₁, hf₁, hf₂⟩ := Option.bind_eq_some_iff.mp hf
    obtain ⟨next, rfl, rfl⟩ := follow_one hf₁
    have hends₁ : (next e.2).Ends es r := by
      rw [Ends, hf₂]
      exact hr
    have hrest := ih (hp e.2 s₁ h₁) hends₁ h₂
    rwa [List.append_assoc] at hrest

instance [DecidableEq Q] [DecidableEq ε] [DecidableEq α] (p : Prog Q A ε α) (h : History Q A)
    (r : Except ε α) : Decidable (p.Ends h r) := inferInstanceAs (Decidable (_ = _))

/-- Every question that is asked is of the kind. -/
theorem Only.asks [DecidableEq Q] {C : Q → Prop} {es : History Q A} {q : Q} (hp : p.Only C)
    (hasks : p.Asks es q) : C q := by
  induction es generalizing p with
  | nil =>
    cases p with
    | done r => cases hasks
    | ask q' next =>
      obtain rfl : q' = q := Option.some.inj hasks
      exact hp.1
  | cons e es ih =>
    rw [Asks, show e :: es = [e] ++ es from rfl, follow_append] at hasks
    cases hf : p.follow [e] with
    | none => rw [hf] at hasks; cases hasks
    | some p' =>
      rw [hf] at hasks
      exact ih (hp.follow hf).2 hasks

/-- A program that has succeeded has asked what it owed. -/
theorem Owes.asked [DecidableEq Q] {C : Event Q A → Prop} {es : History Q A} {a : α} (hp : p.Owes C)
    (hends : p.Ends es (.ok a)) : ∃ h e, C e ∧ p.Asks h e.1 := by
  induction es generalizing p with
  | nil =>
    cases p with
    | done r =>
      obtain rfl : r = .ok a := Option.some.inj hends
      exact hp.elim
    | ask q next => cases hends
  | cons e es ih =>
    rw [Ends, show e :: es = [e] ++ es from rfl, follow_append] at hends
    obtain ⟨p', hf, hr⟩ := Option.bind_eq_some_iff.mp hends
    obtain ⟨p₁, hf₁, hf₂⟩ := Option.bind_eq_some_iff.mp hf
    rcases hp.follow hf₁ with hC | hrest
    · obtain ⟨next, rfl, -⟩ := follow_one hf₁
      exact ⟨[], e, hC, rfl⟩
    · have hends₁ : p₁.Ends es (.ok a) := by
        rw [Ends, hf₂]
        exact hr
      obtain ⟨h, e', hC, hasks⟩ := ih hrest hends₁
      refine ⟨e :: h, e', hC, ?_⟩
      rw [Asks, show e :: h = [e] ++ h from rfl, follow_append, hf₁]
      exact hasks

/-! ## Some path -/

/-- On some path of `p` from `s` the end meets `P`. -/
def Can (exec : S → Event Q A → Option S) : Prog Q A ε α → S → (S → Except ε α → Prop) → Prop
  | .done r, s, P => P s r
  | .ask q next, s, P => ∃ a s', exec s ⟨q, a⟩ = some s' ∧ Can exec (next a) s' P

theorem can_bind {k : α → Prog Q A ε β} {P : S → Except ε α → Prop} {R : S → Except ε β → Prop}
    (hp : Can exec p s P) (hk : ∀ s' r, P s' r → ∃ a, r = .ok a ∧ Can exec (k a) s' R) :
    Can exec (p >>= k) s R := by
  show Can exec (p.bind k) s R
  induction p generalizing s with
  | done r =>
    obtain ⟨a, rfl, hcan⟩ := hk s r hp
    exact hcan
  | ask q next ih =>
    obtain ⟨a, s', hexec, hnext⟩ := hp
    exact ⟨a, s', hexec, ih a hnext⟩

theorem Can.mono {P P' : S → Except ε α → Prop} (hp : Can exec p s P)
    (hP : ∀ s' r, P s' r → P' s' r) : Can exec p s P' := by
  induction p generalizing s with
  | done r => exact hP s r hp
  | ask q next ih =>
    obtain ⟨a, s', hexec, hnext⟩ := hp
    exact ⟨a, s', hexec, ih a hnext⟩

/-- How a program with two parts can end. -/
theorem can_bind_iff {k : α → Prog Q A ε β} {R : S → Except ε β → Prop} :
    Can exec (p >>= k) s R ↔ Can exec p s fun s' r =>
      match r with
      | .ok a => Can exec (k a) s' R
      | .error e => R s' (.error e) := by
  show Can exec (p.bind k) s R ↔ _
  induction p generalizing s with
  | done r => cases r <;> exact Iff.rfl
  | ask q next ih =>
    simp only [bind, Can]
    exact exists_congr fun a => exists_congr fun s' => and_congr_right fun _ => ih a

/-- A question at the front of a program. -/
theorem can_ask {q : Q} {k : A q → Prog Q A ε β} {R : S → Except ε β → Prop} (a : A q)
    (hexec : exec s ⟨q, a⟩ = some s') (hk : Can exec (k a) s' R) : Can exec (query q >>= k) s R :=
  ⟨a, s', hexec, hk⟩

theorem Can.ends [DecidableEq Q] {P : S → Except ε α → Prop} (hp : Can exec p s P) :
    ∃ h s' r, p.Ends h r ∧ execAll exec s h = some s' ∧ P s' r := by
  induction p generalizing s with
  | done r => exact ⟨[], s, r, rfl, rfl, hp⟩
  | ask q next ih =>
    obtain ⟨a, s₁, hexec, hnext⟩ := hp
    obtain ⟨h, s', r, hf, hall, hP⟩ := ih a hnext
    refine ⟨⟨q, a⟩ :: h, s', r, ?_, ?_, hP⟩
    · exact ends_ask hf
    · rw [execAll, hexec, Option.bind_some]
      exact hall

/-- A single history is a path. -/
theorem can_of_ends [DecidableEq Q] {es : History Q A} {r : Except ε α} (hends : p.Ends es r)
    (hexec : execAll exec s es = some s') : Can exec p s fun s₁ r₁ => s₁ = s' ∧ r₁ = r := by
  induction es generalizing p s with
  | nil =>
    obtain rfl := Option.some.inj hexec
    cases p with
    | done r' => exact ⟨rfl, Option.some.inj hends⟩
    | ask q next => cases hends
  | cons e es ih =>
    obtain ⟨s₁, h₁, h₂⟩ := Option.bind_eq_some_iff.mp hexec
    rw [Ends, show e :: es = [e] ++ es from rfl, follow_append] at hends
    obtain ⟨p', hf, hr⟩ := Option.bind_eq_some_iff.mp hends
    obtain ⟨p₁, hf₁, hf₂⟩ := Option.bind_eq_some_iff.mp hf
    obtain ⟨next, rfl, rfl⟩ := follow_one hf₁
    refine ⟨e.2, s₁, h₁, ih ?_ h₂⟩
    rw [Ends, hf₂]
    exact hr

end Prog

/-- An operation that ran alone came to its end. -/
theorem Shared.Alone.ends {Q : Type} {A : Q → Type} {S Op ε α : Type} [DecidableEq Q]
    {exec : S → Event Q A → Option S} {program : Op → Prog Q A ε α} {s s' : S}
    {l : Op × History Q A} (h : Shared.Alone exec program s l = some s') :
    ∃ r, (program l.1).Ends l.2 r ∧ Shared.execAll exec s l.2 = some s' := by
  unfold Shared.Alone at h
  split at h
  · rename_i r hf
    refine ⟨r, ?_, h⟩
    rw [Prog.Ends, hf]
    rfl
  · cases h

end Ppb
