import Mathlib

/-!
# Programs that ask questions

A handler talks to a database, to another server, to a queue and to the clock.
`Prog Q A ε α` is such a handler as a tree: it asks a question `q : Q`, goes on
with whatever answer `A q` it gets, and at the end returns a value or an error.
Nothing is assumed about the answers, so a property of all paths of the tree
holds whatever the other side does.

* `follow`: what is left of a program after some questions were answered, for
  following a single path.
* `wp ok p h R`: on every path of `p` after the history `h`, each question meets
  `ok` at the moment it is answered and the end meets `R`. `wp_bind`, `wp_ask`
  are its rules and `wp_mono` weakens it.
* `ok_of_asks`: what `wp` says about a single path. `OnPath`: the same for a program
  that is followed one event at a time.
* `AtMost n p`: no path of `p` has more than `n` questions.
* `Only C p`: `p` asks questions of the kind `C` only. `only_bind` is its rule.
* `Each P p`: every question of `p` meets `P` together with what follows it.
* `Owes C p`: `p` does not succeed before an event of the kind `C`.
* `Latest h q a`: `a` is the last answer to `q` in `h`.
* `Extends C h h'`: `h'` continues `h`, with questions of the kind `C` only.
-/

namespace Ppb

variable {Q : Type} {A : Q → Type} {ε α β : Type}

/-- A program that asks questions `Q` and returns an `α` or fails with an `ε`. -/
inductive Prog (Q : Type) (A : Q → Type) (ε α : Type) where
  | done (result : Except ε α)
  | ask (q : Q) (next : A q → Prog Q A ε α)

/-- A question with the answer it got. -/
abbrev Event (Q : Type) (A : Q → Type) := (q : Q) × A q

/-- The questions asked so far, oldest first. -/
abbrev History (Q : Type) (A : Q → Type) := List (Event Q A)

namespace Prog

/-- `p`, then `k` if `p` did not fail. -/
def bind : Prog Q A ε α → (α → Prog Q A ε β) → Prog Q A ε β
  | .done (.ok a), k => k a
  | .done (.error e), _ => .done (.error e)
  | .ask q next, k => .ask q fun a => (next a).bind k

instance : Monad (Prog Q A ε) where
  pure a := .done (.ok a)
  bind := Prog.bind

/-- Ask and return the answer. -/
def query (q : Q) : Prog Q A ε (A q) := .ask q pure

/-- `return Err(e)`. -/
def fail (e : ε) : Prog Q A ε α := .done (.error e)

/-- `if c { return Err(e); }`. -/
def failIf (c : Prop) [Decidable c] (e : ε) : Prog Q A ε Unit := if c then fail e else pure ()

/-- `r?` for a `Result`. -/
def ofExcept (r : Except ε α) : Prog Q A ε α := .done r

/-- `o.ok_or(e)?` for an `Option`. -/
def ofOption (e : ε) : Option α → Prog Q A ε α
  | some a => pure a
  | none => fail e

/-- The result of `p` as a value: nothing fails any more. -/
def attempt {ε' : Type} : Prog Q A ε α → Prog Q A ε' (Except ε α)
  | .done r => .done (.ok r)
  | .ask q next => .ask q fun a => (next a).attempt

/-! ## Single paths -/

/-- What is left of `p` after the answers `es`; `none` if these are not answers to
    its questions. -/
def follow [DecidableEq Q] : Prog Q A ε α → History Q A → Option (Prog Q A ε α)
  | p, [] => some p
  | .done _, _ :: _ => none
  | .ask q next, e :: es => if h : e.1 = q then (next (h ▸ e.2)).follow es else none

/-- A single answer. -/
theorem follow_one [DecidableEq Q] {p p' : Prog Q A ε α} {e : Event Q A}
    (hf : p.follow [e] = some p') : ∃ next, p = .ask e.1 next ∧ next e.2 = p' := by
  cases p with
  | done r => cases hf
  | ask q next =>
    obtain ⟨q', a⟩ := e
    simp only [follow] at hf
    split_ifs at hf with hq
    subst hq
    refine ⟨next, rfl, ?_⟩
    cases hnext : next a <;> rw [hnext] at hf <;> exact Option.some.inj hf

theorem follow_self [DecidableEq Q] {q : Q} {a : A q} {next : A q → Prog Q A ε α} :
    (ask q next).follow [⟨q, a⟩] = some (next a) := by
  rw [follow, dif_pos rfl]
  cases next a <;> rfl

/-- The question a program starts with. -/
def question : Prog Q A ε α → Option Q
  | .done _ => none
  | .ask q _ => some q

/-- How a program that asks nothing ends. -/
def result : Prog Q A ε α → Option (Except ε α)
  | .done r => some r
  | .ask _ _ => none

/-- After the answers `h`, the next question of `p` is `q`. -/
def Asks [DecidableEq Q] (p : Prog Q A ε α) (h : History Q A) (q : Q) : Prop :=
  (p.follow h).bind question = some q

instance [DecidableEq Q] (p : Prog Q A ε α) (h : History Q A) (q : Q) : Decidable (p.Asks h q) :=
  inferInstanceAs (Decidable (_ = _))

/-- After the answers `h`, `p` has ended with `r`. -/
def Ends [DecidableEq Q] (p : Prog Q A ε α) (h : History Q A) (r : Except ε α) : Prop :=
  (p.follow h).bind result = some r

/-- A question at the front of a program. -/
theorem follow_ask [DecidableEq Q] {q : Q} {a : A q} {k : A q → Prog Q A ε β} {h : History Q A} :
    (query q >>= k).follow (⟨q, a⟩ :: h) = (k a).follow h := by
  show (if heq : q = q then (k (heq ▸ a)).follow h else none) = _
  rw [dif_pos rfl]

theorem ends_ask [DecidableEq Q] {q : Q} {a : A q} {k : A q → Prog Q A ε β} {h : History Q A}
    {r : Except ε β} (hk : (k a).Ends h r) : (query q >>= k).Ends (⟨q, a⟩ :: h) r := by
  rw [Ends, follow_ask]
  exact hk

/-- The end of `p` if each question gets the answer of `answer`. -/
def eval (answer : (q : Q) → A q) : Prog Q A ε α → Except ε α
  | .done r => r
  | .ask q next => (next (answer q)).eval answer

@[simp] theorem eval_pure (answer : (q : Q) → A q) (a : α) :
    eval answer (pure a : Prog Q A ε α) = .ok a := rfl

@[simp] theorem eval_fail (answer : (q : Q) → A q) (e : ε) :
    eval answer (fail e : Prog Q A ε α) = .error e := rfl

@[simp] theorem eval_failIf (answer : (q : Q) → A q) (c : Prop) [Decidable c] (e : ε) :
    eval answer (failIf c e : Prog Q A ε Unit) = if c then .error e else .ok () := by
  unfold failIf
  split_ifs <;> rfl

@[simp] theorem eval_ofOption_some (answer : (q : Q) → A q) (e : ε) (a : α) :
    eval answer (ofOption e (some a) : Prog Q A ε α) = .ok a := rfl

@[simp] theorem eval_ofOption_none (answer : (q : Q) → A q) (e : ε) :
    eval answer (ofOption e none : Prog Q A ε α) = .error e := rfl

@[simp] theorem eval_query (answer : (q : Q) → A q) (q : Q) :
    eval answer (query q : Prog Q A ε (A q)) = .ok (answer q) := rfl

@[simp] theorem eval_bind (answer : (q : Q) → A q) (p : Prog Q A ε α) (k : α → Prog Q A ε β) :
    eval answer (p >>= k) = (eval answer p).bind fun a => eval answer (k a) := by
  show eval answer (p.bind k) = _
  induction p with
  | done r =>
    cases r with
    | ok a => rfl
    | error e => rfl
  | ask q next ih => exact ih (answer q)

@[simp] theorem eval_attempt {ε' : Type} (answer : (q : Q) → A q) (p : Prog Q A ε α) :
    eval answer (p.attempt : Prog Q A ε' (Except ε α)) = .ok (eval answer p) := by
  induction p with
  | done r => rfl
  | ask q next ih => exact ih (answer q)

/-! ## All paths -/

/-- On every path of `p` after the history `h`, each event meets `ok` at its
    history, and the end meets `R`. -/
def wp (ok : History Q A → Event Q A → Prop) :
    Prog Q A ε α → History Q A → (History Q A → Except ε α → Prop) → Prop
  | .done r, h, R => R h r
  | .ask q next, h, R => ∀ a, ok h ⟨q, a⟩ ∧ wp ok (next a) (h ++ [⟨q, a⟩]) R

variable {ok : History Q A → Event Q A → Prop} {h : History Q A}
  {R R' : History Q A → Except ε α → Prop} {p : Prog Q A ε α}

@[simp] theorem wp_pure {a : α} : wp ok (pure a) h R ↔ R h (.ok a) := Iff.rfl

@[simp] theorem wp_fail {e : ε} : wp ok (fail e) h R ↔ R h (.error e) := Iff.rfl

theorem wp_failIf {c : Prop} [Decidable c] {e : ε} {R : History Q A → Except ε Unit → Prop}
    (hc : c → R h (.error e)) (hn : ¬ c → R h (.ok ())) : wp ok (failIf c e) h R := by
  unfold failIf
  split_ifs with h'
  · exact hc h'
  · exact hn h'

@[simp] theorem wp_ofExcept {r : Except ε α} : wp ok (ofExcept r) h R ↔ R h r := Iff.rfl

@[simp] theorem wp_query {q : Q} {R : History Q A → Except ε (A q) → Prop} :
    wp ok (query q) h R ↔ ∀ a, ok h ⟨q, a⟩ ∧ R (h ++ [⟨q, a⟩]) (.ok a) := Iff.rfl

theorem wp_mono (hp : wp ok p h R) (hR : ∀ h' r, R h' r → R' h' r) : wp ok p h R' := by
  induction p generalizing h with
  | done r => exact hR h r hp
  | ask q next ih =>
    intro a
    exact ⟨(hp a).1, ih a (hp a).2⟩

theorem wp_weaken {ok' : History Q A → Event Q A → Prop} (hp : wp ok p h R)
    (hok : ∀ h e, ok h e → ok' h e) : wp ok' p h R := by
  induction p generalizing h with
  | done r => exact hp
  | ask q next ih =>
    intro a
    exact ⟨hok _ _ (hp a).1, ih a (hp a).2⟩

theorem wp_of_forall (hok : ∀ h e, ok h e) (hR : ∀ h r, R h r) : wp ok p h R := by
  induction p generalizing h with
  | done r => exact hR h r
  | ask q next ih =>
    intro a
    exact ⟨hok _ _, ih a⟩

theorem wp_bind {k : α → Prog Q A ε β} {S : History Q A → Except ε β → Prop} (hp : wp ok p h R)
    (hok : ∀ h' a, R h' (.ok a) → wp ok (k a) h' S)
    (herr : ∀ h' e, R h' (.error e) → S h' (.error e)) : wp ok (p >>= k) h S := by
  show wp ok (p.bind k) h S
  induction p generalizing h with
  | done r =>
    cases r with
    | ok a => exact hok h a hp
    | error e => exact herr h e hp
  | ask q next ih =>
    intro a
    exact ⟨(hp a).1, ih a (hp a).2⟩

/-- A question at the front of a program. -/
theorem wp_ask {q : Q} {k : A q → Prog Q A ε β} {S : History Q A → Except ε β → Prop}
    (hok : ∀ a, ok h ⟨q, a⟩) (hk : ∀ a, wp ok (k a) (h ++ [⟨q, a⟩]) S) :
    wp ok (query q >>= k) h S :=
  fun a => ⟨hok a, hk a⟩

/-- A check at the front of a program. -/
theorem wp_failIf_bind {c : Prop} [Decidable c] {e : ε} {k : Unit → Prog Q A ε β}
    {S : History Q A → Except ε β → Prop} (hc : c → S h (.error e))
    (hn : ¬ c → wp ok (k ()) h S) : wp ok (failIf c e >>= k) h S := by
  unfold failIf
  split_ifs with h'
  · exact hc h'
  · exact hn h'

/-- An optional value at the front of a program. -/
theorem wp_ofOption_bind {e : ε} {o : Option α} {k : α → Prog Q A ε β}
    {S : History Q A → Except ε β → Prop} (hnone : o = none → S h (.error e))
    (hsome : ∀ a, o = some a → wp ok (k a) h S) : wp ok (ofOption e o >>= k) h S := by
  cases o with
  | none => exact hnone rfl
  | some a => exact hsome a rfl

theorem wp_attempt {ε' : Type} {S : History Q A → Except ε' (Except ε α) → Prop}
    (hp : wp ok p h fun h' r => S h' (.ok r)) : wp ok (p.attempt : Prog Q A ε' (Except ε α)) h S := by
  induction p generalizing h with
  | done r => exact hp
  | ask q next ih =>
    intro a
    exact ⟨(hp a).1, ih a (hp a).2⟩

/-- What holds on every path holds on a single one, up to where it was followed. -/
theorem wp_follow [DecidableEq Q] {es : History Q A} :
    ∀ {p : Prog Q A ε α} {h : History Q A} {p' : Prog Q A ε α}, wp ok p h R →
      p.follow es = some p' → wp ok p' (h ++ es) R := by
  induction es with
  | nil =>
    intro p h p' hp hf
    have hp' : p = p' := by cases p <;> exact Option.some.inj hf
    rw [← hp', List.append_nil]
    exact hp
  | cons e es ih =>
    intro p h p' hp hf
    cases p with
    | done r => cases hf
    | ask q next =>
      obtain ⟨q', a⟩ := e
      simp only [follow] at hf
      split_ifs at hf with hq
      subst hq
      have hrest := ih (hp a).2 hf
      rwa [List.append_assoc] at hrest

theorem ok_of_follow [DecidableEq Q] {e : Event Q A} {p' : Prog Q A ε α} (hp : wp ok p h R)
    (hf : p.follow [e] = some p') : ok h e := by
  obtain ⟨next, rfl, -⟩ := follow_one hf
  exact (hp e.2).1

theorem ok_of_asks [DecidableEq Q] {es : History Q A} {q : Q} (hp : wp ok p [] R)
    (hasks : p.Asks es q) (a : A q) : ok es ⟨q, a⟩ := by
  obtain ⟨p', hf, hq⟩ := Option.bind_eq_some_iff.mp hasks
  have hp' := wp_follow hp hf
  cases p' with
  | done r => cases hq
  | ask q' next =>
    obtain rfl : q' = q := Option.some.inj hq
    exact (hp' a).1

theorem of_ends [DecidableEq Q] {es : History Q A} {r : Except ε α} (hp : wp ok p h R)
    (hends : p.Ends es r) : R (h ++ es) r := by
  obtain ⟨p', hf, hr⟩ := Option.bind_eq_some_iff.mp hends
  have hp' := wp_follow hp hf
  cases p' with
  | done r' =>
    obtain rfl : r' = r := Option.some.inj hr
    exact hp'
  | ask q next => cases hr

theorem follow_append [DecidableEq Q] {es fs : History Q A} :
    ∀ {p : Prog Q A ε α}, p.follow (es ++ fs) = (p.follow es).bind fun p' => p'.follow fs := by
  induction es with
  | nil => intro p; cases p <;> rfl
  | cons e es ih =>
    intro p
    cases p with
    | done r => rfl
    | ask q next =>
      simp only [List.cons_append, follow]
      split_ifs
      · exact ih
      · rfl

/-- A program ends as it ends on the path taken. -/
theorem wp_ends_of_follow [DecidableEq Q] {p' : Prog Q A ε α} (hf : p.follow h = some p') :
    wp (fun _ _ => True) p' h p.Ends := by
  induction p' generalizing h with
  | done r =>
    show (p.follow h).bind result = some r
    rw [hf]
    rfl
  | ask q next ih =>
    refine fun a => ⟨trivial, ih a ?_⟩
    rw [follow_append, hf]
    simp [follow]

theorem wp_ends [DecidableEq Q] (p : Prog Q A ε α) : wp (fun _ _ => True) p [] p.Ends :=
  wp_ends_of_follow (by cases p <;> rfl)

/-- A program ends once on a path. -/
theorem Ends.unique [DecidableEq Q] {es fs : History Q A} {r r' : Except ε α} (hr : p.Ends es r)
    (hr' : p.Ends (es ++ fs) r') : fs = [] ∧ r' = r := by
  obtain ⟨p', hf, hp'⟩ := Option.bind_eq_some_iff.mp hr
  rw [Ends, follow_append, hf, Option.bind_some] at hr'
  cases p' with
  | ask q next => cases hp'
  | done r₀ =>
    cases fs with
    | nil => exact ⟨rfl, (Option.some.inj hr').symm.trans (Option.some.inj hp')⟩
    | cons e fs => cases hr'

theorem Ends.unique_of_prefix [DecidableEq Q] {es fs : History Q A} {r r' : Except ε α}
    (hr : p.Ends es r) (hr' : p.Ends fs r') (hes : es <+: h) (hfs : fs <+: h) : r' = r := by
  rcases List.prefix_or_prefix_of_prefix hes hfs with ⟨t, rfl⟩ | ⟨t, rfl⟩
  · exact (hr.unique hr').2
  · exact (hr'.unique hr).2.symm

/-- A path only grows. -/
theorem wp_grows (hp : wp ok p h R) : wp ok p h fun h' r => h <+: h' ∧ R h' r := by
  induction p generalizing h with
  | done r => exact ⟨List.prefix_rfl, hp⟩
  | ask q next ih =>
    refine fun a => ⟨(hp a).1, wp_mono (ih a (hp a).2) fun h' r hr => ?_⟩
    exact ⟨(List.prefix_append h _).trans hr.1, hr.2⟩

/-- What follows a program whose result is a value. -/
theorem follow_attempt_bind [DecidableEq Q] {ε' : Type} {k : Except ε α → Prog Q A ε' β}
    {es : History Q A} : ∀ {p : Prog Q A ε α} {r : Except ε α}, p.Ends es r →
      (p.attempt >>= k).follow es = some (k r) := by
  induction es with
  | nil =>
    intro p r hends
    cases p with
    | done r' =>
      obtain rfl : r' = r := Option.some.inj hends
      show (k r').follow [] = some (k r')
      cases k r' <;> rfl
    | ask q next => cases hends
  | cons e es ih =>
    intro p r hends
    cases p with
    | done r' => cases hends
    | ask q next =>
      simp only [Ends, follow] at hends
      split_ifs at hends with hq
      · show (if h : e.1 = q then ((next (h ▸ e.2)).attempt >>= k).follow es else none) = _
        rw [dif_pos hq]
        exact ih hends
      · cases hends

/-- What follows a program that has succeeded. -/
theorem follow_bind [DecidableEq Q] {k : α → Prog Q A ε β} {es : History Q A} :
    ∀ {p : Prog Q A ε α} {a : α}, p.Ends es (.ok a) → (p >>= k).follow es = some (k a) := by
  induction es with
  | nil =>
    intro p a hends
    cases p with
    | done r =>
      obtain rfl : r = .ok a := Option.some.inj hends
      show (k a).follow [] = some (k a)
      cases k a <;> rfl
    | ask q next => cases hends
  | cons e es ih =>
    intro p a hends
    cases p with
    | done r => cases hends
    | ask q next =>
      simp only [Ends, follow] at hends
      split_ifs at hends with hq
      · show (if h : e.1 = q then (next (h ▸ e.2) >>= k).follow es else none) = _
        rw [dif_pos hq]
        exact ih hends
      · cases hends

/-- `rest` is what is left of a program after the path `h`, all of whose events met
    `ok`; and so it goes on. -/
structure OnPath (ok : History Q A → Event Q A → Prop) (R : History Q A → Except ε α → Prop)
    (h : History Q A) (rest : Prog Q A ε α) : Prop where
  past : ∀ h' e, h' ++ [e] <+: h → ok h' e
  future : wp ok rest h R

theorem OnPath.start (hp : wp ok p [] R) : OnPath ok R [] p := ⟨by simp, hp⟩

theorem OnPath.answer [DecidableEq Q] {e : Event Q A} {p' : Prog Q A ε α} (hp : OnPath ok R h p)
    (hf : p.follow [e] = some p') : OnPath ok R (h ++ [e]) p' := by
  refine ⟨fun h' e' hpre => ?_, wp_follow hp.future hf⟩
  rcases List.prefix_concat_iff.mp hpre with heq | hpre
  · obtain ⟨rfl, he⟩ := List.append_inj' heq rfl
    rw [List.singleton_inj.mp he]
    exact ok_of_follow hp.future hf
  · exact hp.past h' e' hpre

theorem OnPath.ends {r : Except ε α} (hp : OnPath ok R h p) (hr : p.result = some r) : R h r := by
  cases p with
  | done r' =>
    obtain rfl : r' = r := Option.some.inj hr
    exact hp.future
  | ask q next => cases hr

/-! ## Short programs -/

/-- No path of `p` has more than `n` questions. -/
def AtMost : ℕ → Prog Q A ε α → Prop
  | _, .done _ => True
  | 0, .ask _ _ => False
  | n + 1, .ask _ next => ∀ a, (next a).AtMost n

theorem atMost_done {n : ℕ} {r : Except ε α} : (done r : Prog Q A ε α).AtMost n := by
  cases n <;> trivial

theorem AtMost.mono {m n : ℕ} (hp : p.AtMost m) (hmn : m ≤ n) : p.AtMost n := by
  induction p generalizing m n with
  | done r => exact atMost_done
  | ask q next ih =>
    cases m with
    | zero => exact hp.elim
    | succ m =>
      obtain ⟨n, rfl⟩ : ∃ n', n = n' + 1 := ⟨n - 1, by omega⟩
      exact fun a => ih a (hp a) (by omega)

theorem AtMost.bind {m n : ℕ} {k : α → Prog Q A ε β} (hp : p.AtMost m)
    (hk : ∀ a, (k a).AtMost n) : (p >>= k).AtMost (m + n) := by
  show (p.bind k).AtMost (m + n)
  induction p generalizing m with
  | done r =>
    cases r with
    | ok a => exact (hk a).mono (by omega)
    | error e => exact atMost_done
  | ask q next ih =>
    cases m with
    | zero => exact hp.elim
    | succ m =>
      rw [show m + 1 + n = (m + n) + 1 by omega]
      exact fun a => ih a (hp a)

/-- `AtMost.bind` for a part that asks nothing. -/
theorem AtMost.after {n : ℕ} {k : α → Prog Q A ε β} (hp : p.AtMost 0)
    (hk : ∀ a, (k a).AtMost n) : (p >>= k).AtMost n :=
  (hp.bind hk).mono (by omega)

theorem atMost_query (q : Q) : (query q : Prog Q A ε (A q)).AtMost 1 := fun _ => trivial

theorem atMost_failIf (c : Prop) [Decidable c] (e : ε) : (failIf c e : Prog Q A ε Unit).AtMost 0 := by
  unfold failIf
  split_ifs <;> trivial

theorem atMost_ofOption (e : ε) (o : Option α) : (ofOption e o : Prog Q A ε α).AtMost 0 := by
  cases o <;> trivial

theorem AtMost.attempt {ε' : Type} {n : ℕ} (hp : p.AtMost n) :
    (p.attempt : Prog Q A ε' (Except ε α)).AtMost n := by
  induction p generalizing n with
  | done r => exact atMost_done
  | ask q next ih =>
    cases n with
    | zero => exact hp.elim
    | succ n => exact fun a => ih a (hp a)

theorem wp_of_atMost {n : ℕ} (hp : p.AtMost n) :
    wp (fun h' _ => h'.length < h.length + n) p h fun h' _ => h'.length ≤ h.length + n := by
  induction p generalizing n h with
  | done r => exact Nat.le_add_right _ _
  | ask q next ih =>
    cases n with
    | zero => exact hp.elim
    | succ n =>
      refine fun a => ⟨by omega, ?_⟩
      have hlen : (h ++ [(⟨q, a⟩ : Event Q A)]).length + n = h.length + (n + 1) := by
        rw [List.length_append, List.length_singleton]
        omega
      have hrest := ih a (h := h ++ [⟨q, a⟩]) (hp a)
      rwa [hlen] at hrest

/-! ## Questions of one kind -/

/-- Every question of `p`, on every path, is of the kind `C`. -/
def Only (C : Q → Prop) : Prog Q A ε α → Prop
  | .done _ => True
  | .ask q next => C q ∧ ∀ a, (next a).Only C

section Only

variable {C : Q → Prop}

theorem only_done {r : Except ε α} : (done r : Prog Q A ε α).Only C := trivial

theorem only_query {q : Q} (hq : C q) : (query q : Prog Q A ε (A q)).Only C :=
  ⟨hq, fun _ => trivial⟩

theorem only_failIf {c : Prop} [Decidable c] {e : ε} : (failIf c e : Prog Q A ε Unit).Only C := by
  unfold failIf
  split_ifs <;> trivial

theorem only_ofOption {e : ε} {o : Option α} : (ofOption e o : Prog Q A ε α).Only C := by
  cases o <;> trivial

theorem only_bind {k : α → Prog Q A ε β} (hp : p.Only C) (hk : ∀ a, (k a).Only C) :
    (p >>= k).Only C := by
  show (p.bind k).Only C
  induction p with
  | done r =>
    cases r with
    | ok a => exact hk a
    | error e => trivial
  | ask q next ih => exact ⟨hp.1, fun a => ih a (hp.2 a)⟩

/-- A check at the front of a program. -/
theorem only_failIf_bind {c : Prop} [Decidable c] {e : ε} {k : Unit → Prog Q A ε β}
    (hn : ¬ c → (k ()).Only C) : (failIf c e >>= k).Only C := by
  unfold failIf
  split_ifs with h
  · trivial
  · exact hn h

theorem only_attempt {ε' : Type} (hp : p.Only C) :
    (p.attempt : Prog Q A ε' (Except ε α)).Only C := by
  induction p with
  | done r => trivial
  | ask q next ih => exact ⟨hp.1, fun a => ih a (hp.2 a)⟩

theorem Only.mono {D : Q → Prop} (hp : p.Only C) (hCD : ∀ q, C q → D q) : p.Only D := by
  induction p with
  | done r => trivial
  | ask q next ih => exact ⟨hCD q hp.1, fun a => ih a (hp.2 a)⟩

theorem Only.wp (hp : p.Only C) : wp (fun _ e => C e.1) p h fun _ _ => True := by
  induction p generalizing h with
  | done r => trivial
  | ask q next ih => exact fun a => ⟨hp.1, ih a (hp.2 a)⟩

theorem Only.follow [DecidableEq Q] {e : Event Q A} {p' : Prog Q A ε α} (hp : p.Only C)
    (hf : p.follow [e] = some p') : C e.1 ∧ p'.Only C := by
  obtain ⟨next, rfl, rfl⟩ := follow_one hf
  exact ⟨hp.1, hp.2 e.2⟩

end Only

/-! ## The last question -/

/-- After a question `q` with `T q = some r` the program ends in `r`. -/
def Finally (T : Q → Option (Except ε α)) : Prog Q A ε α → Prop
  | .done _ => True
  | .ask q next => (∀ r ∈ T q, ∀ a, next a = .done r) ∧ ∀ a, (next a).Finally T

section Finally

variable {T : Q → Option (Except ε β)} {q : Prog Q A ε β}

theorem finally_of_only (hq : q.Only fun x => T x = none) : q.Finally T := by
  induction q with
  | done r => trivial
  | ask x next ih => exact ⟨by simp [hq.1], fun a => ih a (hq.2 a)⟩

theorem finally_bind {k : α → Prog Q A ε β} (hp : p.Only fun x => T x = none)
    (hk : ∀ a, (k a).Finally T) : (p >>= k).Finally T := by
  show (p.bind k).Finally T
  induction p with
  | done r =>
    cases r with
    | ok a => exact hk a
    | error e => trivial
  | ask x next ih => exact ⟨by simp [hp.1], fun a => ih a (hp.2 a)⟩

theorem Finally.follow [DecidableEq Q] {e : Event Q A} {q' : Prog Q A ε β} (hq : q.Finally T)
    (hf : q.follow [e] = some q') : (∀ r ∈ T e.1, q' = .done r) ∧ q'.Finally T := by
  obtain ⟨next, rfl, rfl⟩ := follow_one hf
  exact ⟨fun r hr => hq.1 r hr e.2, hq.2 e.2⟩

end Finally

/-! ## Questions with what follows them -/

/-- Every question of `p`, on every path, meets `P` together with what follows it. -/
def Each (P : (q : Q) → (A q → Prog Q A ε α) → Prop) : Prog Q A ε α → Prop
  | .done _ => True
  | .ask q next => P q next ∧ ∀ a, (next a).Each P

section Each

variable {P : (q : Q) → (A q → Prog Q A ε β) → Prop}

theorem each_done {r : Except ε β} : (done r : Prog Q A ε β).Each P := trivial

theorem each_of_only {C : Q → Prop} {q : Prog Q A ε β} (hq : q.Only C)
    (hC : ∀ x next, C x → P x next) : q.Each P := by
  induction q with
  | done r => trivial
  | ask x next ih => exact ⟨hC x next hq.1, fun a => ih a (hq.2 a)⟩

/-- A question at the front of a program. -/
theorem each_ask {q : Q} {k : A q → Prog Q A ε β} (hP : P q k) (hk : ∀ a, (k a).Each P) :
    (query q >>= k).Each P := ⟨hP, hk⟩

/-- Questions that `P` does not care about. -/
theorem each_bind {k : α → Prog Q A ε β} (hp : p.Only fun x => ∀ next, P x next)
    (hk : ∀ a, (k a).Each P) : (p >>= k).Each P := by
  show (p.bind k).Each P
  induction p with
  | done r =>
    cases r with
    | ok a => exact hk a
    | error e => trivial
  | ask x next ih => exact ⟨hp.1 _, fun a => ih a (hp.2 a)⟩

/-- Questions that `P` cares about together with what comes after `p`. -/
theorem Each.bind {k : α → Prog Q A ε β}
    (hp : p.Each fun x next => P x fun a => next a >>= k) (hk : ∀ a, (k a).Each P) :
    (p >>= k).Each P := by
  show (p.bind k).Each P
  induction p with
  | done r =>
    cases r with
    | ok a => exact hk a
    | error e => trivial
  | ask x next ih => exact ⟨hp.1, fun a => ih a (hp.2 a)⟩

theorem each_attempt_bind {p : Prog Q A ε α} {ε' : Type} {k : Except ε α → Prog Q A ε' β}
    {P : (q : Q) → (A q → Prog Q A ε' β) → Prop}
    (hp : p.Each fun x next => P x fun a => (next a).attempt >>= k) (hk : ∀ r, (k r).Each P) :
    (p.attempt >>= k).Each P := by
  induction p with
  | done r => exact hk r
  | ask x next ih => exact ⟨hp.1, fun a => ih a (hp.2 a)⟩

end Each

/-! ## Decisive events -/

/-- On every path of `p` that succeeds there is an event of the kind `C`. -/
def Owes (C : Event Q A → Prop) : Prog Q A ε α → Prop
  | .done (.ok _) => False
  | .done (.error _) => True
  | .ask q next => ∀ a, C ⟨q, a⟩ ∨ (next a).Owes C

variable {C : Event Q A → Prop}

theorem owes_fail {e : ε} : (fail e : Prog Q A ε α).Owes C := trivial

/-- A question that may be the decisive one. -/
theorem owes_ask {q : Q} {k : A q → Prog Q A ε β} (hk : ∀ a, C ⟨q, a⟩ ∨ (k a).Owes C) :
    (query q >>= k).Owes C := hk

/-- What comes last is still owed. -/
theorem owes_bind {k : α → Prog Q A ε β} (hk : ∀ a, (k a).Owes C) : (p >>= k).Owes C := by
  show (p.bind k).Owes C
  induction p with
  | done r =>
    cases r with
    | ok a => exact hk a
    | error e => trivial
  | ask q next ih => exact fun a => .inr (ih a)

/-- What comes first is still owed. -/
theorem Owes.bind {k : α → Prog Q A ε β} (hp : p.Owes C) : (p >>= k).Owes C := by
  show (p.bind k).Owes C
  induction p with
  | done r =>
    cases r with
    | ok a => exact hp.elim
    | error e => trivial
  | ask q next ih => exact fun a => (hp a).imp_right (ih a)

/-- On every path of `p` that ends in `T` there is an event of the kind `C`. -/
def Needs (T : Except ε α → Prop) (C : Event Q A → Prop) : Prog Q A ε α → Prop
  | .done r => ¬ T r
  | .ask q next => ∀ a, C ⟨q, a⟩ ∨ (next a).Needs T C

variable {T : Except ε β → Prop}

theorem needs_ask {q : Q} {k : A q → Prog Q A ε β} (hk : ∀ a, C ⟨q, a⟩ ∨ (k a).Needs T C) :
    (query q >>= k).Needs T C := hk

theorem needs_bind {k : α → Prog Q A ε β} (hk : ∀ a, (k a).Needs T C) (hT : ∀ e, ¬ T (.error e)) :
    (p >>= k).Needs T C := by
  show (p.bind k).Needs T C
  induction p with
  | done r =>
    cases r with
    | ok a => exact hk a
    | error e => exact hT e
  | ask q next ih => exact fun a => .inr (ih a)

theorem Needs.follow [DecidableEq Q] {T : Except ε α → Prop} {e : Event Q A} {p' : Prog Q A ε α}
    (hp : p.Needs T C) (hf : p.follow [e] = some p') : C e ∨ p'.Needs T C := by
  obtain ⟨next, rfl, rfl⟩ := follow_one hf
  exact hp e.2

theorem Owes.follow [DecidableEq Q] {e : Event Q A} {p' : Prog Q A ε α} (hp : p.Owes C)
    (hf : p.follow [e] = some p') : C e ∨ p'.Owes C := by
  obtain ⟨next, rfl, rfl⟩ := follow_one hf
  exact hp e.2

end Prog

/-! ## Facts about a history -/

/-- `a` is the last answer to `q`. -/
def Latest (h : History Q A) (q : Q) (a : A q) : Prop :=
  ∃ h₁ h₂, h = h₁ ++ ⟨q, a⟩ :: h₂ ∧ ∀ e ∈ h₂, e.1 ≠ q

theorem Latest.now (h : History Q A) (q : Q) (a : A q) : Latest (h ++ [⟨q, a⟩]) q a :=
  ⟨h, [], rfl, nofun⟩

theorem Latest.append {h : History Q A} {q : Q} {a : A q} (hl : Latest h q a)
    {es : History Q A} (hes : ∀ e ∈ es, e.1 ≠ q) : Latest (h ++ es) q a := by
  obtain ⟨h₁, h₂, rfl, hne⟩ := hl
  refine ⟨h₁, h₂ ++ es, by simp, fun e he => ?_⟩
  rcases List.mem_append.mp he with he | he
  · exact hne e he
  · exact hes e he

/-- `h'` is `h` followed by questions of the kind `C`. -/
def Extends (C : Q → Prop) (h h' : History Q A) : Prop :=
  ∃ es, h' = h ++ es ∧ ∀ e ∈ es, C e.1

variable {C D : Q → Prop} {h h₁ h₂ : History Q A}

theorem Extends.refl : Extends C h h := ⟨[], by simp, nofun⟩

theorem Extends.snoc {e : Event Q A} (hx : Extends C h h₁) (he : C e.1) :
    Extends C h (h₁ ++ [e]) := by
  obtain ⟨es, rfl, hes⟩ := hx
  refine ⟨es ++ [e], by simp, fun e' he' => ?_⟩
  rcases List.mem_append.mp he' with he' | he'
  · exact hes e' he'
  · rw [List.mem_singleton.mp he']
    exact he

theorem Extends.trans (hx : Extends C h h₁) (hy : Extends C h₁ h₂) : Extends C h h₂ := by
  obtain ⟨es, rfl, hes⟩ := hx
  obtain ⟨fs, rfl, hfs⟩ := hy
  refine ⟨es ++ fs, by simp, fun e he => ?_⟩
  rcases List.mem_append.mp he with he | he
  · exact hes e he
  · exact hfs e he

theorem Extends.mono (hx : Extends C h h₁) (hCD : ∀ q, C q → D q) : Extends D h h₁ := by
  obtain ⟨es, rfl, hes⟩ := hx
  exact ⟨es, rfl, fun e he => hCD _ (hes e he)⟩

theorem Latest.extends {q : Q} {a : A q} (hl : Latest h q a) (hx : Extends C h h₁)
    (hq : ¬ C q) : Latest h₁ q a := by
  obtain ⟨es, rfl, hes⟩ := hx
  exact hl.append fun e he hqe => hq (hqe ▸ hes e he)

end Ppb
