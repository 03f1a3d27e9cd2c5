import Ppb.Common.SharedStore

/-!
# Programs that are told the truth

A program that only reads is answered from one and the same store. Then only those of its
paths matter on which every answer is true.

* `Told T C p h R`: on every path of `p` after `h` whose answers are all in `T`, each question
  meets `C` when it is asked, and the end meets `R`. `told_bind`, `told_ask` are its rules,
  `Told.asks` is what it says about a single path.
* `trace answer p`: the path of `p` on which each question gets the answer of `answer`.
* `Told.asks_execAll`, `Told.ends_execAll`: what a program that only reads asks and how it ends,
  when it runs alone.
-/

namespace Ppb.Prog

variable {Q : Type} {A : Q → Type} {ε α β : Type}

/-- On every path of `p` after `h` whose answers are in `T`, each question meets `C` at its
    history, and the end meets `R`. -/
def Told (T : Event Q A → Prop) (C : History Q A → Q → Prop) :
    Prog Q A ε α → History Q A → (History Q A → Except ε α → Prop) → Prop
  | .done r, h, R => R h r
  | .ask q next, h, R => C h q ∧ ∀ a, T ⟨q, a⟩ → Told T C (next a) (h ++ [⟨q, a⟩]) R

variable {T : Event Q A → Prop} {C : History Q A → Q → Prop} {h : History Q A}
  {p : Prog Q A ε α} {R R' : History Q A → Except ε α → Prop}

theorem told_mono (hp : Told T C p h R) (hR : ∀ h' r, R h' r → R' h' r) : Told T C p h R' := by
  induction p generalizing h with
  | done r => exact hR h r hp
  | ask q next ih => exact ⟨hp.1, fun a ha => ih a (hp.2 a ha)⟩

theorem told_bind {k : α → Prog Q A ε β} {S : History Q A → Except ε β → Prop}
    (hp : Told T C p h R) (hok : ∀ h' a, R h' (.ok a) → Told T C (k a) h' S)
    (herr : ∀ h' e, R h' (.error e) → S h' (.error e)) : Told T C (p >>= k) h S := by
  show Told T C (p.bind k) h S
  induction p generalizing h with
  | done r =>
    cases r with
    | ok a => exact hok h a hp
    | error e => exact herr h e hp
  | ask q next ih => exact ⟨hp.1, fun a ha => ih a (hp.2 a ha)⟩

/-- A question at the front of a program. -/
theorem told_ask {q : Q} {k : A q → Prog Q A ε β} {S : History Q A → Except ε β → Prop}
    (hq : C h q) (hk : ∀ a, T ⟨q, a⟩ → Told T C (k a) (h ++ [⟨q, a⟩]) S) :
    Told T C (query q >>= k) h S := ⟨hq, hk⟩

/-- A check at the front of a program. -/
theorem told_failIf_bind {c : Prop} [Decidable c] {e : ε} {k : Unit → Prog Q A ε β}
    {S : History Q A → Except ε β → Prop} (hc : c → S h (.error e))
    (hn : ¬ c → Told T C (k ()) h S) : Told T C (failIf c e >>= k) h S := by
  unfold failIf
  split_ifs with h'
  · exact hc h'
  · exact hn h'

/-- Questions of one kind, all of which may be asked. -/
theorem told_of_only {D : Q → Prop} (hp : p.Only D) (hD : ∀ h' q, h <+: h' → D q → C h' q) :
    Told T C p h fun h' _ => h <+: h' := by
  induction p generalizing h with
  | done r => exact List.prefix_rfl
  | ask q next ih =>
    refine ⟨hD h q List.prefix_rfl hp.1, fun a _ => ?_⟩
    have hpre : h <+: h ++ [⟨q, a⟩] := List.prefix_append _ _
    refine told_mono (ih a (hp.2 a) fun h' q' hh' hq' => hD h' q' (hpre.trans hh') hq') ?_
    exact fun h' r hh' => hpre.trans hh'

theorem Told.follow [DecidableEq Q] {es : History Q A} :
    ∀ {p p' : Prog Q A ε α} {h : History Q A}, Told T C p h R → p.follow es = some p' →
      (∀ e ∈ es, T e) → Told T C p' (h ++ es) R := by
  induction es with
  | nil =>
    intro p p' h hp hf _
    have hp' : p = p' := by cases p <;> exact Option.some.inj hf
    rw [← hp', List.append_nil]
    exact hp
  | cons e es ih =>
    intro p p' h hp hf htrue
    rw [show e :: es = [e] ++ es from rfl, follow_append] at hf
    obtain ⟨p₁, hf₁, hf₂⟩ := Option.bind_eq_some_iff.mp hf
    obtain ⟨next, rfl, rfl⟩ := follow_one hf₁
    have hnext := hp.2 e.2 (htrue e List.mem_cons_self)
    have hrest := ih hnext hf₂ fun e' he' => htrue e' (List.mem_cons_of_mem _ he')
    rwa [List.append_assoc] at hrest

theorem Told.asks [DecidableEq Q] {es : History Q A} {q : Q} (hp : Told T C p [] R)
    (hasks : p.Asks es q) (htrue : ∀ e ∈ es, T e) : C es q := by
  obtain ⟨p', hf, hq⟩ := Option.bind_eq_some_iff.mp hasks
  have hp' := hp.follow hf htrue
  cases p' with
  | done r => cases hq
  | ask q' next =>
    obtain rfl : q' = q := Option.some.inj hq
    exact hp'.1

theorem Told.ends [DecidableEq Q] {es : History Q A} {r : Except ε α} (hp : Told T C p [] R)
    (hends : p.Ends es r) (htrue : ∀ e ∈ es, T e) : R es r := by
  obtain ⟨p', hf, hr⟩ := Option.bind_eq_some_iff.mp hends
  have hp' := hp.follow hf htrue
  cases p' with
  | done r' =>
    obtain rfl : r' = r := Option.some.inj hr
    exact hp'
  | ask q next => cases hr

/-! ## One path -/

/-- The questions of `p` if each gets the answer of `answer`. -/
def trace (answer : (q : Q) → A q) : Prog Q A ε α → History Q A
  | .done _ => []
  | .ask q next => ⟨q, answer q⟩ :: (next (answer q)).trace answer

variable {answer : (q : Q) → A q}

/-- A question at the front of a program. -/
theorem trace_ask {q : Q} {k : A q → Prog Q A ε β} :
    (query q >>= k).trace answer = ⟨q, answer q⟩ :: (k (answer q)).trace answer := rfl

/-- The questions of the first part come first. -/
theorem mem_trace_bind_left {k : α → Prog Q A ε β} {e : Event Q A} (he : e ∈ p.trace answer) :
    e ∈ (p >>= k).trace answer := by
  show e ∈ (p.bind k).trace answer
  induction p with
  | done r => cases he
  | ask q next ih =>
    rcases List.mem_cons.mp he with rfl | he
    · exact List.mem_cons_self
    · exact List.mem_cons_of_mem _ (ih (answer q) he)

/-- The questions of the second part follow if the first has succeeded. -/
theorem mem_trace_bind {k : α → Prog Q A ε β} {e : Event Q A} {a : α} (ha : p.eval answer = .ok a)
    (he : e ∈ (k a).trace answer) : e ∈ (p >>= k).trace answer := by
  show e ∈ (p.bind k).trace answer
  induction p with
  | done r =>
    obtain rfl : r = .ok a := ha
    exact he
  | ask q next ih => exact List.mem_cons_of_mem _ (ih (answer q) ha)

/-- What is on the path is asked at some point of it. -/
theorem asks_of_mem_trace [DecidableEq Q] {e : Event Q A} (he : e ∈ p.trace answer) :
    ∃ h, p.Asks h e.1 ∧ ∀ e' ∈ h, e' = ⟨e'.1, answer e'.1⟩ := by
  induction p with
  | done r => cases he
  | ask q next ih =>
    rcases List.mem_cons.mp he with rfl | he
    · exact ⟨[], rfl, nofun⟩
    · obtain ⟨h, hasks, htrue⟩ := ih (answer q) he
      refine ⟨⟨q, answer q⟩ :: h, ?_, List.forall_mem_cons.mpr ⟨rfl, htrue⟩⟩
      have hfollow : (ask q next).follow (⟨q, answer q⟩ :: h) = (next (answer q)).follow h :=
        follow_ask
      rw [Asks, hfollow]
      exact hasks

/-! ## Reads -/

section Reads

variable {S : Type} {exec : S → Event Q A → Option S} {s s' : S}

/-- Reads are answered from one store, which they leave as it is. -/
theorem Told.truths [DecidableEq Q] {es : History Q A} {p' : Prog Q A ε α}
    (hreads : ∀ h q a s', C h q → exec s ⟨q, a⟩ = some s' → s' = s) :
    ∀ {p : Prog Q A ε α} {h : History Q A}, Told (fun e => exec s e = some s) C p h R →
      p.follow es = some p' → Shared.execAll exec s es = some s' → ∀ e ∈ es, exec s e = some s := by
  induction es with
  | nil => exact fun _ _ _ _ he => nomatch he
  | cons e es ih =>
    intro p h hp hf hexec
    rw [show e :: es = [e] ++ es from rfl, follow_append] at hf
    obtain ⟨p₁, hf₁, hf₂⟩ := Option.bind_eq_some_iff.mp hf
    obtain ⟨next, rfl, rfl⟩ := follow_one hf₁
    obtain ⟨s₁, h₁, h₂⟩ := Option.bind_eq_some_iff.mp hexec
    obtain rfl := hreads h e.1 e.2 s₁ hp.1 h₁
    exact List.forall_mem_cons.mpr ⟨h₁, ih (hp.2 e.2 h₁) hf₂ h₂⟩

/-- What a program that only reads asks, when it runs alone. -/
theorem Told.asks_execAll [DecidableEq Q] {es : History Q A} {q : Q}
    (hreads : ∀ h q a s', C h q → exec s ⟨q, a⟩ = some s' → s' = s)
    (hp : Told (fun e => exec s e = some s) C p [] R) (hasks : p.Asks es q)
    (hexec : Shared.execAll exec s es = some s') : C es q := by
  obtain ⟨p', hf, -⟩ := Option.bind_eq_some_iff.mp hasks
  exact hp.asks hasks (hp.truths hreads hf hexec)

/-- A history of true answers. -/
theorem execAll_of_truths {es : History Q A} (htrue : ∀ e ∈ es, exec s e = some s) : Shared.execAll exec s es = some s := by
  induction es with
  | nil => rfl
  | cons e es ih =>
    rw [List.forall_mem_cons] at htrue
    rw [Shared.execAll, htrue.1, Option.bind_some]
    exact ih htrue.2

end Reads

end Ppb.Prog
